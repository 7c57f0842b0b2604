import EditorInsight.Proofs.Service.Undisturbed

/-!
# Caching is not noticed

A session with caches, and one that lists the library and reads its modules anew for every request, are
taken through the same steps. If every change of a module is delivered to the watcher before the next
request, the two give the same answers.
-/

namespace EditorInsight

/-- What happens to a service: a request, the passing of time, a call that the library changed, a change of
a file, and the delivery of an event. -/
inductive ServiceStep where
  | request (k : RequestKind) (d : Document) (p : CursorPosition)
  | advance (milliseconds : Quantity)
  | libraryChanged (path : Option Text)
  | change (c : FileChange)
  | deliver (e : FileEvent)

abbrev Outcome := (k : RequestKind) × Except Interruption k.Result

namespace ServiceStep

def treeAfter (top : FileNode) : ServiceStep → FileNode
  | change c => c.apply top
  | _ => top

def pendingAfter (pending : List FileEvent) : ServiceStep → List FileEvent
  | change c => pending ++ [c.event]
  | deliver e => pending.filter (· ≠ e)
  | _ => pending

/-- Time moves forward, only possible changes of modules happen, and no request comes before all of them
have been delivered. -/
def IsAllowed (extensions : List Text) (top : FileNode) (pending : List FileEvent) : ServiceStep → Prop
  | request .. => pending = []
  | advance milliseconds => milliseconds.IsForward
  | libraryChanged _ => True
  | change c => c.IsPossible top ∧ c.IsOfModule extensions
  | deliver _ => True

instance (extensions : List Text) (top : FileNode) (pending : List FileEvent) :
    (x : ServiceStep) → Decidable (x.IsAllowed extensions top pending)
  | request .. => inferInstanceAs (Decidable (pending = []))
  | advance milliseconds => inferInstanceAs (Decidable milliseconds.IsForward)
  | libraryChanged _ => instDecidableTrue
  | change c => inferInstanceAs (Decidable (c.IsPossible top ∧ c.IsOfModule extensions))
  | deliver _ => instDecidableTrue

/-- Every step is allowed when it is taken. -/
def AreOrderly (extensions : List Text) : FileNode → List FileEvent → List ServiceStep → Prop
  | _, _, [] => True
  | top, pending, x :: r => x.IsAllowed extensions top pending ∧
    AreOrderly extensions (x.treeAfter top) (x.pendingAfter pending) r

instance decidableAreOrderly (extensions : List Text) (top : FileNode) (pending : List FileEvent) :
    (steps : List ServiceStep) → Decidable (AreOrderly extensions top pending steps)
  | [] => instDecidableTrue
  | x :: r =>
    have := decidableAreOrderly extensions (x.treeAfter top) (x.pendingAfter pending) r
    inferInstanceAs (Decidable (_ ∧ _))

end ServiceStep

namespace Session

/-- A step of a session with its caches. A clock that cannot be moved so far stays. -/
def step (s : Session) : ServiceStep → Session × Option Outcome
  | .request k d p =>
    let (s, outcome) := (Act.request k d p).runIn s
    (s, some ⟨k, outcome⟩)
  | .advance milliseconds => match s.advance milliseconds with
    | .ok s => (s, none)
    | .error _ => (s, none)
  | .libraryChanged path => ((s.libraryChanged path).1, none)
  | .change c => (s.changeFile c, none)
  | .deliver e => (s.deliverEvent e, none)

/-- A step of a service without caches, which only has to see the files. -/
def directStep (s : Session) : ServiceStep → Session × Option Outcome
  | .request k d p => (s, some ⟨k, s.directOutcome k d p⟩)
  | .change c => (s.changeFile c, none)
  | _ => (s, none)

def outcomes (step : Session → ServiceStep → Session × Option Outcome) (s : Session) :
    List ServiceStep → List Outcome
  | [] => []
  | x :: r => (step s x).2.toList ++ outcomes step (step s x).1 r

/-- What answers depend on. -/
def world (s : Session) : Configuration × Schema × Disk × OrderedMap Text Int :=
  (s.configuration, s.schema, s.disk, s.versions)

variable {s t : Session} {pending : List FileEvent}

theorem directOutcome_of_world (h : s.world = t.world) (k : RequestKind) (d : Document)
    (p : CursorPosition) : s.directOutcome k d p = t.directOutcome k d p := by
  cases s
  cases t
  simp only [world, Prod.mk.injEq] at h
  obtain ⟨rfl, rfl, rfl, rfl⟩ := h
  rfl

theorem disk_of_world (h : s.world = t.world) : s.disk = t.disk := congrArg (·.2.2.1) h

theorem library_of_world (h : s.world = t.world) : s.library = t.library := by
  have hconfiguration : s.configuration = t.configuration := congrArg Prod.fst h
  rw [library, hconfiguration, library]

theorem world_changeFile (h : s.world = t.world) (c : FileChange) :
    (s.changeFile c).world = (t.changeFile c).world := by
  simp only [world, changeFile, Prod.mk.injEq] at h ⊢
  obtain ⟨hconfiguration, hschema, hdisk, hversions⟩ := h
  exact ⟨hconfiguration, hschema, by rw [hdisk], hversions⟩

/-- The session has coherent caches and shows the same world as the one without caches. -/
structure Simulates (s t : Session) (pending : List FileEvent) : Prop where
  isWatched : s.IsWatched
  coherent : s.Coherent pending
  world_eq : s.world = t.world

theorem Simulates.of_bare {s' : Session} (h : s.Simulates t pending) {pending' : List FileEvent}
    (hbare : s'.bare = s.bare) (hcoherent : s'.Coherent pending') : s'.Simulates t pending' :=
  ⟨h.isWatched.of_bare hbare, hcoherent,
    (eq_of_bare_eq hbare world fun _ => rfl).trans h.world_eq⟩

/-- One step: the outcomes agree, and so do the sessions after it. -/
theorem Simulates.step (h : s.Simulates t pending) {x : ServiceStep}
    (hx : x.IsAllowed t.library.extensions t.disk.top pending) :
    (s.step x).2 = (t.directStep x).2 ∧
      (s.step x).1.Simulates (t.directStep x).1 (x.pendingAfter pending) := by
  rw [← library_of_world h.world_eq, ← disk_of_world h.world_eq] at hx
  cases x with
  | request k d p =>
    obtain rfl : pending = [] := hx
    obtain ⟨s', hbare, hcoherent, hrun⟩ := h.coherent.request h.isWatched k d p
    have hstep : s.step (.request k d p) = (s', some ⟨k, t.directOutcome k d p⟩) := by
      rw [← directOutcome_of_world h.world_eq, Session.step, hrun]
    rw [hstep]
    exact ⟨rfl, h.of_bare hbare hcoherent⟩
  | advance milliseconds =>
    cases hadvance : s.advance milliseconds with
    | error f =>
      rw [Session.step, hadvance]
      exact ⟨rfl, h⟩
    | ok s' =>
      -- The clock is no part of the world, and every entry is still reached from it.
      obtain ⟨clock, hclock, rfl⟩ := exists_clock_of_advance hadvance
      have hs := h.isWatched
      rw [Session.step, hadvance]
      exact ⟨rfl, ⟨hs.exists_watcher, hs.lower_extension, hs.slash_not_mem, hs.isPlain_current⟩,
        h.coherent.advance hx hclock, h.world_eq⟩
  | libraryChanged path =>
    have hforgets := s.forgets_libraryChanged path
    exact ⟨rfl, h.of_bare hforgets.bare_eq (h.coherent.of_forgets hforgets)⟩
  | change c =>
    exact ⟨rfl, isWatched_changeFile h.isWatched c, h.coherent.changeFile h.isWatched hx.1 hx.2,
      world_changeFile h.world_eq c⟩
  | deliver e =>
    exact ⟨rfl, h.of_bare (s.forgets_deliverEvent e).bare_eq (h.coherent.deliverEvent h.isWatched e)⟩

theorem directStep_library (t : Session) (x : ServiceStep) : (t.directStep x).1.library = t.library := by
  cases x <;> rfl

theorem directStep_top (t : Session) (x : ServiceStep) :
    (t.directStep x).1.disk.top = x.treeAfter t.disk.top := by
  cases x <;> rfl

/-- A run: as long as the steps are orderly, the outcomes agree. -/
theorem Simulates.outcomes_eq (h : s.Simulates t pending) {steps : List ServiceStep}
    (hsteps : ServiceStep.AreOrderly t.library.extensions t.disk.top pending steps) :
    outcomes Session.step s steps = outcomes directStep t steps := by
  induction steps generalizing s t pending with
  | nil => rfl
  | cons x steps ih =>
    obtain ⟨hx, hrest⟩ := hsteps
    obtain ⟨houtcome, hafter⟩ := h.step hx
    rw [← t.directStep_library x, ← t.directStep_top x] at hrest
    rw [outcomes, outcomes, houtcome, ih hafter hrest]

/-- The caches are empty, and the clock has not gone below zero. -/
structure IsFresh (s : Session) : Prop where
  outlines : s.outlines.entries = []
  imports : s.imports.slot = none
  isForward_clock : s.clock.IsForward

theorem IsFresh.coherent (h : s.IsFresh) : s.Coherent [] where
  isForward_clock := h.isForward_clock
  outlines x hx := by
    rw [h.outlines] at hx
    cases hx
  imports e he := by
    rw [h.imports] at he
    cases he

/-- From empty caches, whatever their limits are, a session that listens to its watcher gives on every
orderly run the answers of a service that caches nothing. -/
theorem cached_outcomes_eq_direct (hwatched : s.IsWatched) (hfresh : s.IsFresh) {steps : List ServiceStep}
    (hsteps : ServiceStep.AreOrderly s.library.extensions s.disk.top [] steps) :
    outcomes step s steps = outcomes directStep s steps := by
  have hstart : s.Simulates s [] := ⟨hwatched, hfresh.coherent, rfl⟩
  exact hstart.outcomes_eq hsteps

def oneModule : Session where
  configuration := { workspace := "/w", file := "/w/.apy_intel.yml" }
  schema := {}
  disk := {
    top := .folder [("w", .folder [("src", .folder [("libs", .folder
      [("m.py", .file (Text.encodeUtf8 "def f(a):"))])])])] }
  watcher := some { root := "/w/src/libs", listeners := [.session] }

/-- The same question before and after the module is rewritten and after it is moved away. -/
def rewrittenAndMoved : List ServiceStep :=
  [.request .hover ⟨"/w/d.py", "m.f", 0⟩ ⟨0, 3⟩,
    .change (.modify ["w", "src", "libs", "m.py"] (Text.encodeUtf8 "def f(b):")),
    .deliver { kind := .modified, path := "/w/src/libs/m.py" },
    .request .hover ⟨"/w/d.py", "m.f", 0⟩ ⟨0, 3⟩,
    .change (.move ["w", "src", "libs", "m.py"] ["w", "src", "libs", "n.py"]),
    .advance (.whole 2999),
    .deliver { kind := .moved "/w/src/libs/n.py", path := "/w/src/libs/m.py" },
    .libraryChanged (some "n.py"),
    .request .hover ⟨"/w/d.py", "m.f", 0⟩ ⟨0, 3⟩]

theorem cached_outcomes_eq_direct_rewrittenAndMoved :
    oneModule.IsWatched ∧ oneModule.IsFresh ∧
      ServiceStep.AreOrderly oneModule.library.extensions oneModule.disk.top [] rewrittenAndMoved ∧
      outcomes step oneModule rewrittenAndMoved = outcomes directStep oneModule rewrittenAndMoved := by
  have hwatched : oneModule.IsWatched :=
    ⟨⟨_, rfl, List.mem_singleton_self _, rfl⟩, by decide +kernel, by decide, by decide⟩
  have hfresh : oneModule.IsFresh := ⟨rfl, rfl, by decide⟩
  have hsteps : ServiceStep.AreOrderly oneModule.library.extensions oneModule.disk.top []
      rewrittenAndMoved := by
    decide +kernel
  exact ⟨hwatched, hfresh, hsteps, cached_outcomes_eq_direct hwatched hfresh hsteps⟩

end Session
end EditorInsight
