import EditorInsight.Service.Session
import Mathlib.Data.List.Nodup

/-!
# Listeners of a session

A report is handed to the registered listeners in turn. The session drops what its caches know; what a
listener other than the session does is up to it: it fails or not, and it has listeners registered or
unregistered. Each report calls every listener that the reports before it have left, and apart from the
caches nothing but the list of listeners changes.
-/

namespace EditorInsight

def Delivery.call {κ : Type} (d : Delivery κ) : κ × Text := (d.listener, d.path)

namespace Watcher

variable {κ σ : Type} (call : κ → Text → σ → σ × Option Text)

theorem map_call_notify (path : Text) (ls : List κ) (s : σ) :
    (notify call path ls s).2.map Delivery.call = ls.map (·, path) := by
  induction ls generalizing s with
  | nil => rfl
  | cons l r ih =>
    simp only [notify, List.map_cons, ih]
    rfl

theorem fst_notify (path : Text) (ls : List κ) (s : σ) :
    (notify call path ls s).1 = (ls.map (·, path)).foldl (fun s c => (call c.1 c.2 s).1) s := by
  induction ls generalizing s with
  | nil => rfl
  | cons l r ih => exact ih _

/-- The calls that are told are those that were made, in that order. -/
theorem fst_deliver (listeners : σ → List κ) (paths : List Text) (s : σ) :
    (deliver listeners call paths s).1 =
      ((deliver listeners call paths s).2.map Delivery.call).foldl (fun s c => (call c.1 c.2 s).1) s := by
  induction paths generalizing s with
  | nil => rfl
  | cons path r ih =>
    simp only [deliver, List.map_append, List.foldl_append, map_call_notify]
    rw [ih, ← fst_notify]

end Watcher

/-- A listener comes or goes. -/
inductive Enrolment where
  | join (listener : Listener)
  | leave (listener : Listener)

/-- The listeners after one came, as the last unless it was there already, or went. -/
def Enrolment.apply (ls : List Listener) : Enrolment → List Listener
  | .join l => if l ∈ ls then ls else ls ++ [l]
  | .leave l => ls.filter (· ≠ l)

theorem Enrolment.nodup_apply {ls : List Listener} (h : ls.Nodup) (c : Enrolment) : (c.apply ls).Nodup := by
  cases c with
  | join l =>
    by_cases hl : l ∈ ls
    · simpa [apply, hl] using h
    · simpa [apply, hl] using h.concat hl
  | leave l => exact h.filter _

theorem Enrolment.nodup_foldl_apply {ls : List Listener} (h : ls.Nodup) (cs : List Enrolment) :
    (cs.foldl apply ls).Nodup := by
  induction cs generalizing ls with
  | nil => exact h
  | cons c r ih => exact ih (nodup_apply h c)

/-- What a listener other than the session does about a report. -/
structure Reaction where
  enrolments : List Enrolment := []
  failure : Option Text := none

namespace Session

def enrol (s : Session) : Enrolment → Session
  | .join l => { s with watcher := s.watcher.map (·.register l) }
  | .leave l => { s with watcher := s.watcher.map (·.unregister l) }

/-- How listeners answer a report: the session as it does, the others as they please. -/
def hearWith (react : Nat → Text → Reaction) (l : Listener) (path : Text) (s : Session) :
    Session × Option Text :=
  match l with
  | .session => hear .session path s
  | .other n => ((react n path).enrolments.foldl enrol s, (react n path).failure)

def enrolments (react : Nat → Text → Reaction) (path : Text) : Listener → List Enrolment
  | .session => []
  | .other n => (react n path).enrolments

def remaining (react : Nat → Text → Reaction) (ls : List Listener) (path : Text) : List Listener :=
  (ls.flatMap (enrolments react path)).foldl Enrolment.apply ls

def callsWith (react : Nat → Text → Reaction) : List Listener → List Text → List (Listener × Text)
  | _, [] => []
  | ls, path :: r => ls.map (·, path) ++ callsWith react (remaining react ls path) r

/-- Apart from what its caches hold, the later session is the earlier one with the given listeners. -/
structure IsRelisted (s : Session) (ls : List Listener) (s' : Session) : Prop where
  configuration : s'.configuration = s.configuration
  log : s'.log = s.log
  watcher : s'.watcher = s.watcher.map ({ · with listeners := ls })

variable {s s' s'' : Session} {w : Watcher Listener} {ls ls' : List Listener} (react : Nat → Text → Reaction)

theorem listeners_of_watcher (hw : s.watcher = some w) : s.listeners = w.listeners := by
  simp [listeners, hw]

theorem listeners_eq_nil (hw : s.watcher = none) : s.listeners = [] := by
  simp [listeners, hw]

theorem IsRelisted.refl (s : Session) : s.IsRelisted s.listeners s := by
  refine ⟨rfl, rfl, ?_⟩
  cases hw : s.watcher with
  | none => rfl
  | some w => rw [listeners_of_watcher hw, Option.map_some]

theorem IsRelisted.trans (h : s.IsRelisted ls s') (h' : s'.IsRelisted ls' s'') : s.IsRelisted ls' s'' := by
  refine ⟨h'.configuration.trans h.configuration, h'.log.trans h.log, ?_⟩
  rw [h'.watcher, h.watcher, Option.map_map]
  rfl

theorem IsRelisted.isSome (h : s.IsRelisted ls s') (hw : s.watcher.isSome = true) :
    s'.watcher.isSome = true := by
  rw [h.watcher, Option.isSome_map, hw]

theorem IsRelisted.listeners_eq (h : s.IsRelisted ls s') (hw : s.watcher.isSome = true) :
    s'.listeners = ls := by
  obtain ⟨w, hw⟩ := Option.isSome_iff_exists.mp hw
  rw [Session.listeners, h.watcher, hw]
  rfl

theorem isRelisted_enrol (hn : s.listeners.Nodup) (c : Enrolment) :
    s.IsRelisted (c.apply s.listeners) (s.enrol c) := by
  cases hw : s.watcher with
  | none => cases c <;> exact ⟨rfl, rfl, by simp [enrol, hw]⟩
  | some w =>
    rw [listeners_of_watcher hw] at hn ⊢
    cases c with
    | join l =>
      refine ⟨rfl, rfl, ?_⟩
      by_cases hl : l ∈ w.listeners <;> simp [enrol, hw, Watcher.register, Enrolment.apply, hl]
    | leave l =>
      refine ⟨rfl, rfl, ?_⟩
      simp only [enrol, hw, Option.map_some, Watcher.unregister, Enrolment.apply, hn.erase_eq_filter]
      congr 3
      funext a
      by_cases ha : a = l <;> simp [ha]

theorem isRelisted_foldl_enrol (hw : s.watcher.isSome = true) (hn : s.listeners.Nodup)
    (cs : List Enrolment) : s.IsRelisted (cs.foldl Enrolment.apply s.listeners) (cs.foldl enrol s) := by
  induction cs generalizing s with
  | nil => exact .refl s
  | cons c r ih =>
    have hc := isRelisted_enrol hn c
    have hls := hc.listeners_eq hw
    have hr := ih (hc.isSome hw) (hls ▸ Enrolment.nodup_apply hn c)
    rw [hls] at hr
    exact hc.trans hr

theorem isRelisted_libraryChanged (s : Session) (path : Option Text) :
    s.IsRelisted s.listeners (s.libraryChanged path).1 := by
  have hs := IsRelisted.refl s
  unfold libraryChanged
  dsimp only
  split
  · exact ⟨rfl, rfl, hs.watcher⟩
  · split <;> exact ⟨rfl, rfl, hs.watcher⟩

theorem isRelisted_hearWith (hw : s.watcher.isSome = true) (hn : s.listeners.Nodup) (l : Listener)
    (path : Text) :
    s.IsRelisted ((enrolments react path l).foldl Enrolment.apply s.listeners)
      (hearWith react l path s).1 := by
  cases l with
  | session => exact isRelisted_libraryChanged s (some path)
  | other n => exact isRelisted_foldl_enrol hw hn _

theorem isRelisted_notify (hw : s.watcher.isSome = true) (hn : s.listeners.Nodup) (path : Text)
    (ls : List Listener) :
    s.IsRelisted ((ls.flatMap (enrolments react path)).foldl Enrolment.apply s.listeners)
      (Watcher.notify (hearWith react) path ls s).1 := by
  induction ls generalizing s with
  | nil => exact .refl s
  | cons l r ih =>
    have hl := isRelisted_hearWith react hw hn l path
    have hls := hl.listeners_eq hw
    have hr := ih (hl.isSome hw) (hls ▸ Enrolment.nodup_foldl_apply hn _)
    rw [hls] at hr
    rw [List.flatMap_cons, List.foldl_append]
    exact hl.trans hr

theorem deliver_hearWith (hw : s.watcher.isSome = true) (hn : s.listeners.Nodup) (paths : List Text) :
    s.IsRelisted (paths.foldl (remaining react) s.listeners)
        (Watcher.deliver listeners (hearWith react) paths s).1 ∧
      (Watcher.deliver listeners (hearWith react) paths s).2.map Delivery.call =
        callsWith react s.listeners paths := by
  induction paths generalizing s with
  | nil => exact ⟨.refl s, rfl⟩
  | cons path r ih =>
    have hp := isRelisted_notify react hw hn path s.listeners
    have hls := hp.listeners_eq hw
    obtain ⟨hr, hcalls⟩ := ih (hp.isSome hw) (hls ▸ Enrolment.nodup_foldl_apply hn _)
    rw [hls] at hr hcalls
    refine ⟨hp.trans hr, ?_⟩
    simp only [Watcher.deliver, List.map_append, Watcher.map_call_notify, hcalls]
    rfl

end Session
end EditorInsight
