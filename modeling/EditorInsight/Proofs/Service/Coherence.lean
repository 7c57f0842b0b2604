import EditorInsight.Proofs.Cache.Entries
import EditorInsight.Proofs.Watch.FileChange
import EditorInsight.Service.Direct

/-!
# Coherent caches

The caches of a session are coherent with its disk if everything they hold is what the disk says now,
unless a report about it is still to come. Every step other than a request keeps them so: a change of a
file adds its event to those to come, and the delivery of an event drops what the event is about.
-/

namespace EditorInsight.Session

/-- The session listens to its watcher, which looks for the extensions of the library. They are in lower
case and without a slash, and the current directory consists of names. -/
structure IsWatched (s : Session) : Prop where
  exists_watcher : ∃ w, s.watcher = some w ∧ Listener.session ∈ w.listeners ∧
    w.extensions = s.library.extensions
  lower_extension : ∀ e ∈ s.library.extensions, Text.lower e = e
  slash_not_mem : ∀ e ∈ s.library.extensions, '/' ∉ e
  isPlain_current : ∀ name ∈ s.disk.current, Path.IsPlain name

/-- A session without what it remembers and logs. -/
def bare (s : Session) : Session := { s with outlines := {}, imports := {}, log := [] }

/-- The paths that the watcher reports for an event. -/
def reported (s : Session) (e : FileEvent) : List Text :=
  (s.watcher.map fun w => w.reports e).getD []

/-- A cached outline is that of the file at its place, or a report about that file is to come. -/
def HoldsOutline (s : Session) (pending : List FileEvent) (x : Text × CacheEntry Outline) : Prop :=
  s.clock.Reached x.2.loadedAt ∧
  ∃ place, (∀ name ∈ place, Path.IsPlain name) ∧ HasExtension s.library.extensions place ∧
    x.1 = Path.ofPlace place ∧
    (x.2.value = outlineOf s.layout (s.disk.textAt place) ∨
      ∃ e ∈ pending, ∃ p ∈ s.reported e, s.moduleKey p = .ok x.1)

/-- The cached names are those of the library, or a report is to come. -/
def HoldsImports (s : Session) (pending : List FileEvent) (e : SlotEntry) : Prop :=
  e.key = s.configuration.workspace ∧ s.clock.Reached e.loadedAt ∧
    (s.disk.probe s.library.importNames = .ok e.names ∨ ∃ e ∈ pending, s.reported e ≠ [])

/-- What the caches hold is right, up to the events that are still to be delivered. -/
structure Coherent (s : Session) (pending : List FileEvent) : Prop where
  isForward_clock : s.clock.IsForward
  outlines : ∀ x ∈ s.outlines.entries, s.HoldsOutline pending x
  imports : ∀ e ∈ s.imports.slot, s.HoldsImports pending e

/-- The later session differs only in having forgotten something. -/
structure Forgets (s s' : Session) : Prop where
  bare_eq : s'.bare = s.bare
  outlines : ∀ x ∈ s'.outlines.entries, x ∈ s.outlines.entries
  imports : ∀ e ∈ s'.imports.slot, e ∈ s.imports.slot

variable {s s' s'' : Session} {pending : List FileEvent}

/-- What does not depend on the caches and the log is the same for sessions that agree on the rest. -/
theorem eq_of_bare_eq {β : Type} (h : s'.bare = s.bare) (f : Session → β) (hf : ∀ s, f s = f s.bare) :
    f s' = f s := by
  rw [hf s', h, ← hf s]

theorem IsWatched.of_bare (h : s'.bare = s.bare) (hs : s.IsWatched) : s'.IsWatched := by
  have hbare : s.bare.IsWatched :=
    ⟨hs.exists_watcher, hs.lower_extension, hs.slash_not_mem, hs.isPlain_current⟩
  rw [← h] at hbare
  exact ⟨hbare.exists_watcher, hbare.lower_extension, hbare.slash_not_mem, hbare.isPlain_current⟩

theorem HoldsOutline.of_bare (h : s'.bare = s.bare) {x : Text × CacheEntry Outline}
    (hx : s.HoldsOutline pending x) : s'.HoldsOutline pending x := by
  change s'.bare.HoldsOutline pending x
  rw [h]
  exact hx

theorem HoldsImports.of_bare (h : s'.bare = s.bare) {e : SlotEntry}
    (he : s.HoldsImports pending e) : s'.HoldsImports pending e := by
  change s'.bare.HoldsImports pending e
  rw [h]
  exact he

theorem Forgets.refl (s : Session) : s.Forgets s := ⟨rfl, fun _ h => h, fun _ h => h⟩

theorem Forgets.trans (h : s.Forgets s') (h' : s'.Forgets s'') : s.Forgets s'' :=
  ⟨h'.bare_eq.trans h.bare_eq, fun x hx => h.outlines x (h'.outlines x hx),
    fun e he => h.imports e (h'.imports e he)⟩

theorem Coherent.of_forgets (hs : s.Coherent pending) (h : s.Forgets s') : s'.Coherent pending where
  isForward_clock := by
    rw [eq_of_bare_eq h.bare_eq clock fun _ => rfl]
    exact hs.isForward_clock
  outlines x hx := (hs.outlines x (h.outlines x hx)).of_bare h.bare_eq
  imports e he := (hs.imports e (h.imports e he)).of_bare h.bare_eq

/-! Reports of changes. -/

/-- The caches hold nothing that a report about the path has to remove. -/
def HasDropped (s : Session) (path : Text) : Prop :=
  s.imports.slot = none ∧
    ∀ key, s.moduleKey path = .ok key → ∀ x ∈ s.outlines.entries, x.1 ≠ key

theorem HasDropped.of_forgets {path : Text} (hs : s.HasDropped path) (h : s.Forgets s') :
    s'.HasDropped path := by
  refine ⟨?_, fun key hkey x hx => ?_⟩
  · rw [Option.eq_none_iff_forall_not_mem]
    intro e he
    have hmem := h.imports e he
    rw [hs.1] at hmem
    cases hmem
  · have hsame : s'.moduleKey path = s.moduleKey path :=
      eq_of_bare_eq h.bare_eq (·.moduleKey path) fun _ => rfl
    rw [hsame] at hkey
    exact hs.2 key hkey x (h.outlines x hx)

theorem forgets_libraryChanged (s : Session) (path : Option Text) :
    s.Forgets (s.libraryChanged path).1 := by
  have himports : ∀ e ∈ (s.imports.invalidate none).slot, e ∈ s.imports.slot := by
    intro e he
    cases he
  unfold libraryChanged
  dsimp only
  split
  · exact ⟨rfl, fun x hx => (List.not_mem_nil hx).elim, himports⟩
  · split
    · exact ⟨rfl, fun x hx => (KeyedCache.mem_without.mp hx).1, himports⟩
    · exact ⟨rfl, fun x hx => hx, himports⟩

theorem hasDropped_libraryChanged (s : Session) (path : Text) :
    (s.libraryChanged (some path)).1.HasDropped path := by
  unfold libraryChanged
  dsimp only
  split
  · exact ⟨rfl, fun key _ x hx => (List.not_mem_nil hx).elim⟩
  · rename_i p hp
    obtain ⟨hsome, -⟩ := Option.filter_eq_some_iff.mp hp
    obtain rfl := Option.some.inj hsome
    split
    · rename_i key hkey
      refine ⟨rfl, fun key' hkey' x hx => ?_⟩
      obtain rfl : key = key' := Except.ok.inj (hkey.symm.trans hkey')
      exact (KeyedCache.mem_without.mp hx).2
    · rename_i f hf
      refine ⟨rfl, fun key hkey => ?_⟩
      cases hf.symm.trans hkey

theorem forgets_hear (listener : Listener) (path : Text) (s : Session) :
    s.Forgets (hear listener path s).1 := by
  cases listener with
  | session => exact s.forgets_libraryChanged (some path)
  | other number => exact Forgets.refl s

theorem forgets_notify (path : Text) (ls : List Listener) (s : Session) :
    s.Forgets (Watcher.notify hear path ls s).1 := by
  induction ls generalizing s with
  | nil => exact Forgets.refl s
  | cons l ls ih => exact (forgets_hear l path s).trans (ih _)

theorem hasDropped_notify {path : Text} {ls : List Listener} (h : Listener.session ∈ ls) (s : Session) :
    (Watcher.notify hear path ls s).1.HasDropped path := by
  induction ls generalizing s with
  | nil => cases h
  | cons l ls ih =>
    cases List.mem_cons.mp h with
    | inl heq =>
      subst heq
      exact (s.hasDropped_libraryChanged path).of_forgets (forgets_notify path ls _)
    | inr hmem => exact ih hmem _

theorem forgets_deliver (paths : List Text) (s : Session) :
    s.Forgets (Watcher.deliver listeners hear paths s).1 := by
  induction paths generalizing s with
  | nil => exact Forgets.refl s
  | cons path paths ih => exact (forgets_notify path _ s).trans (ih _)

theorem hasDropped_deliver {paths : List Text} (hs : Listener.session ∈ s.listeners) {path : Text}
    (hpath : path ∈ paths) : (Watcher.deliver listeners hear paths s).1.HasDropped path := by
  induction paths generalizing s with
  | nil => cases hpath
  | cons first paths ih =>
    have hfirst := forgets_notify first s.listeners s
    have hlisteners : Listener.session ∈ (Watcher.notify hear first s.listeners s).1.listeners := by
      rw [eq_of_bare_eq hfirst.bare_eq listeners fun _ => rfl]
      exact hs
    cases List.mem_cons.mp hpath with
    | inl heq =>
      subst heq
      exact (hasDropped_notify hs s).of_forgets (forgets_deliver paths _)
    | inr hmem => exact ih hlisteners hmem

theorem forgets_deliverEvent (s : Session) (e : FileEvent) : s.Forgets (s.deliverEvent e) := by
  unfold deliverEvent handOut
  split
  · exact Forgets.refl s
  · rename_i w hw
    have h := s.forgets_deliver (w.reports e)
    exact ⟨h.bare_eq, h.outlines, h.imports⟩

theorem hasDropped_deliverEvent (hs : s.IsWatched) {e : FileEvent} {path : Text}
    (hpath : path ∈ s.reported e) : (s.deliverEvent e).HasDropped path := by
  obtain ⟨w, hw, hsession, -⟩ := hs.exists_watcher
  have hlisteners : Listener.session ∈ s.listeners := by
    rw [listeners, hw]
    exact hsession
  rw [reported, hw] at hpath
  unfold deliverEvent handOut
  rw [hw]
  exact hasDropped_deliver hlisteners hpath

theorem Coherent.deliverEvent (hcoherent : s.Coherent pending) (hs : s.IsWatched) (e : FileEvent) :
    (s.deliverEvent e).Coherent (pending.filter (· ≠ e)) := by
  have hforgets := s.forgets_deliverEvent e
  have hreported (e' : FileEvent) : (s.deliverEvent e).reported e' = s.reported e' :=
    eq_of_bare_eq hforgets.bare_eq (·.reported e') fun _ => rfl
  obtain ⟨hclock, houtlines, himports⟩ := hcoherent.of_forgets hforgets
  refine ⟨hclock, fun x hx => ?_, fun slot hslot => ?_⟩
  · obtain ⟨hreached, place, hplain, hextension, hkey, hvalue⟩ := houtlines x hx
    refine ⟨hreached, place, hplain, hextension, hkey, hvalue.imp id ?_⟩
    rintro ⟨e', he', p, hp, hpkey⟩
    -- The report is not one of this event, which would have dropped the entry.
    refine ⟨e', List.mem_filter.mpr ⟨he', decide_eq_true ?_⟩, p, hp, hpkey⟩
    rintro rfl
    rw [hreported] at hp
    exact (hasDropped_deliverEvent hs hp).2 x.1 hpkey x hx rfl
  · obtain ⟨hkey, hreached, hvalue⟩ := himports slot hslot
    refine ⟨hkey, hreached, hvalue.imp id ?_⟩
    rintro ⟨e', he', hp⟩
    refine ⟨e', List.mem_filter.mpr ⟨he', decide_eq_true ?_⟩, hp⟩
    rintro rfl
    rw [hreported] at hp
    obtain ⟨p, hp⟩ := List.exists_mem_of_ne_nil _ hp
    rw [(hasDropped_deliverEvent hs hp).1] at hslot
    cases hslot

/-! Versions, the clock and the disk. -/

theorem exists_versions_updateDocument (s : Session) (uri : Text) (version : Int) :
    ∃ versions, s.updateDocument uri version = { s with versions := versions } := by
  unfold updateDocument
  split
  · split
    · exact ⟨_, rfl⟩
    · exact ⟨s.versions, rfl⟩
  · exact ⟨_, rfl⟩

theorem exists_clock_of_advance {milliseconds : Quantity} (h : s.advance milliseconds = .ok s') :
    ∃ clock, s.clock.add milliseconds = .ok clock ∧ s' = { s with clock := clock } := by
  cases hclock : s.clock.add milliseconds with
  | error f =>
    rw [Session.advance, hclock] at h
    cases h
  | ok clock =>
    rw [Session.advance, hclock] at h
    exact ⟨clock, rfl, (Except.ok.inj h).symm⟩

theorem Coherent.advance (h : s.Coherent pending) {milliseconds clock : Quantity}
    (hforward : milliseconds.IsForward) (hclock : s.clock.add milliseconds = .ok clock) :
    Coherent { s with clock := clock } pending := by
  refine ⟨h.isForward_clock.add hforward hclock, fun x hx => ?_, fun e he => ?_⟩
  · obtain ⟨hreached, hrest⟩ := h.outlines x hx
    exact ⟨hreached.add hforward hclock, hrest⟩
  · obtain ⟨hkey, hreached, hrest⟩ := h.imports e he
    exact ⟨hkey, hreached.add hforward hclock, hrest⟩

def changeFile (s : Session) (c : FileChange) : Session :=
  { s with disk := { s.disk with top := c.apply s.disk.top } }

theorem isWatched_changeFile (hs : s.IsWatched) (c : FileChange) : (s.changeFile c).IsWatched :=
  ⟨hs.exists_watcher, hs.lower_extension, hs.slash_not_mem, hs.isPlain_current⟩

theorem ofPlace_mem_reported (hs : s.IsWatched) {c : FileChange} (hpossible : c.IsPossible s.disk.top)
    (hmodule : c.IsOfModule s.library.extensions) {place : List Text} (hplace : place ∈ c.touched)
    (hextension : HasExtension s.library.extensions place) :
    Path.ofPlace place ∈ s.reported c.event := by
  obtain ⟨w, hw, -, hextensions⟩ := hs.exists_watcher
  rw [← hextensions] at hmodule hextension
  rw [reported, hw]
  exact w.mem_reports_event hpossible hmodule hplace hextension

theorem textAt_changeFile {c : FileChange} (hpossible : c.IsPossible s.disk.top) {place : List Text}
    (hplace : place ∉ c.touched) : (s.changeFile c).disk.textAt place = s.disk.textAt place := by
  have hlook : (s.changeFile c).disk.top.look place = s.disk.top.look place :=
    FileChange.look_apply hpossible hplace
  rw [Disk.textAt, hlook]
  rfl

/-- A change of a module leaves the caches coherent, up to its own event. -/
theorem Coherent.changeFile (h : s.Coherent pending) (hs : s.IsWatched) {c : FileChange}
    (hpossible : c.IsPossible s.disk.top) (hmodule : c.IsOfModule s.library.extensions) :
    (s.changeFile c).Coherent (pending ++ [c.event]) := by
  refine ⟨h.isForward_clock, fun x hx => ?_, fun e he => ?_⟩
  · obtain ⟨hreached, place, hplain, hextension, hkey, hvalue⟩ := h.outlines x hx
    refine ⟨hreached, place, hplain, hextension, hkey, ?_⟩
    by_cases htouched : place ∈ c.touched
    · -- The entry may be out of date now, but the change is reported under its key.
      have hproper := (hpossible.isFilePlace place htouched).proper
      refine .inr ⟨c.event, List.mem_append_right _ (List.mem_singleton_self _), Path.ofPlace place,
        ofPlace_mem_reported hs hpossible hmodule htouched hextension, ?_⟩
      rw [hkey]
      exact Path.canonical_ofPlace hproper _
    · rcases hvalue with hvalue | ⟨e, he, hp⟩
      · exact .inl (hvalue.trans (congrArg _ (textAt_changeFile hpossible htouched).symm))
      · exact .inr ⟨e, List.mem_append_left _ he, hp⟩
  · obtain ⟨hkey, hreached, -⟩ := h.imports e he
    obtain ⟨place, hplace, hextension⟩ := hmodule.exists_module
    refine ⟨hkey, hreached, .inr ⟨c.event, List.mem_append_right _ (List.mem_singleton_self _), ?_⟩⟩
    exact List.ne_nil_of_mem (ofPlace_mem_reported hs hpossible hmodule hplace hextension)

end EditorInsight.Session
