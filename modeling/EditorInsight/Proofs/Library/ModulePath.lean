import EditorInsight.Library.Listing
import EditorInsight.Proofs.Files.Tree
import EditorInsight.Proofs.Text.Lowercase

/-!
# Where names in a library lead

Questions asked along a run of a dialogue, and what a dotted name leads to on a disk: a module path is one
that arrives at a file whose name ends with a module extension.
-/

namespace EditorInsight

namespace Dialogue

variable {Q R : Type} {A : Q → Type} {B : R → Type} {α β ε : Type}

@[simp] theorem run_pure {m : Type → Type} [Monad m] (answer : (q : Q) → m (A q)) (a : α) :
    (pure a : Dialogue Q A α).run answer = pure a := rfl

theorem run_bind {m : Type → Type} [Monad m] [LawfulMonad m] (answer : (q : Q) → m (A q))
    (d : Dialogue Q A α) (f : α → Dialogue Q A β) :
    (d >>= f).run answer = d.run answer >>= fun a => (f a).run answer := by
  change (d.bind f).run answer = _
  induction d with
  | done a => exact (LawfulMonad.pure_bind a fun a => (f a).run answer).symm
  | ask q next ih =>
    rw [bind, run, run, LawfulMonad.bind_assoc]
    congr 1
    funext a
    exact ih a

theorem run_question {m : Type → Type} [Monad m] [LawfulMonad m] (answer : (q : Q) → m (A q)) (q : Q) :
    (question q : Dialogue Q A (A q)).run answer = answer q := by
  exact bind_pure (answer q)

theorem run_refine {m : Type → Type} [Monad m] [LawfulMonad m] (answer : (r : R) → m (B r))
    (f : (q : Q) → Dialogue R B (A q)) (d : Dialogue Q A α) :
    (d.refine f).run answer = d.run fun q => (f q).run answer := by
  induction d with
  | done a => rfl
  | ask q next ih =>
    have hbind := run_bind answer (f q) fun a => (next a).refine f
    simp only [ih] at hbind
    exact hbind

/-- Every question that is asked while `answer` answers satisfies `p`. -/
def Asks (answer : (q : Q) → Except ε (A q)) (p : Q → Prop) : Dialogue Q A α → Prop
  | .done _ => True
  | .ask q next => p q ∧ ∀ a, answer q = .ok a → (next a).Asks answer p

theorem asks_pure (answer : (q : Q) → Except ε (A q)) (p : Q → Prop) (a : α) :
    (pure a : Dialogue Q A α).Asks answer p := trivial

theorem asks_question (answer : (q : Q) → Except ε (A q)) {p : Q → Prop} {q : Q} (h : p q) :
    (question q : Dialogue Q A (A q)).Asks answer p := ⟨h, fun _ _ => trivial⟩

/-- What follows has to be looked at only for results that the first part can have. -/
theorem asks_bind {answer : (q : Q) → Except ε (A q)} {p : Q → Prop} {d : Dialogue Q A α}
    {f : α → Dialogue Q A β} (hd : d.Asks answer p)
    (hf : ∀ a, d.run answer = .ok a → (f a).Asks answer p) : (d >>= f).Asks answer p := by
  change (d.bind f).Asks answer p
  induction d with
  | done a => exact hf a rfl
  | ask q next ih =>
    obtain ⟨hq, hnext⟩ := hd
    refine ⟨hq, fun a ha => ih a (hnext a ha) fun b hb => hf b ?_⟩
    rw [run, ha]
    exact hb

theorem asks_refine {answer : (r : R) → Except ε (B r)} {p : R → Prop}
    {f : (q : Q) → Dialogue R B (A q)} (hf : ∀ q, (f q).Asks answer p) (d : Dialogue Q A α) :
    (d.refine f).Asks answer p := by
  induction d with
  | done a => trivial
  | ask q next ih => exact asks_bind (hf q) fun a _ => ih a

end Dialogue

theorem exists_of_bind_eq_ok {ε α β : Type} {x : Except ε α} {f : α → Except ε β} {b : β}
    (h : (x >>= f) = .ok b) : ∃ a, x = .ok a ∧ f a = .ok b := by
  cases x with
  | error e => cases h
  | ok a => exact ⟨a, rfl, h⟩

namespace Disk

theorem probe_bind {α β : Type} (d : Disk) (p : Probe α) (f : α → Probe β) :
    d.probe (p >>= f) = d.probe p >>= fun a => d.probe (f a) :=
  Dialogue.run_bind _ p f

theorem probe_present (d : Disk) (path : Text) :
    d.probe (Probe.present path) = .ok (d.isPresent path) := rfl

theorem probe_read (d : Disk) (path : Text) : d.probe (Probe.read path) = .ok (d.read path).1 := rfl

theorem probe_list (d : Disk) (path : Text) :
    d.probe (Probe.list path) = (d.list path).map Prod.fst := by
  exact Dialogue.run_question _ (FileQuestion.list path)

theorem isPresent_iff {d : Disk} {path : Text} : d.isPresent path = true ↔
    Path.hasNull path = false ∧ ∃ place n, d.arrive path = .found place n := by
  unfold isPresent
  cases d.arrive path <;> simp

/-- Something that is present and cannot be listed is a file. -/
theorem exists_file_of_probe {d : Disk} {path : Text} (hpresent : d.isPresent path = true)
    (hlist : d.probe (Probe.isFolder path) = .ok false) :
    Path.hasNull path = false ∧ ∃ place bytes, d.arrive path = .found place (.file bytes) := by
  obtain ⟨hnull, place, n, harrive⟩ := isPresent_iff.mp hpresent
  refine ⟨hnull, place, ?_⟩
  cases n with
  | file bytes => exact ⟨bytes, harrive⟩
  | folder cs =>
    rw [Probe.isFolder, probe_bind, probe_list, list, hnull, harrive] at hlist
    cases hlist

end Disk

namespace Library

theorem exists_getLast?_pieces {e : Text} (he : '/' ∉ e) (x : Text) :
    ∃ q, (Path.pieces (x ++ e)).getLast? = some (q ++ e) := by
  -- The extension has no slash, so all of it stays in the last piece.
  induction x with
  | nil => exact ⟨[], by rw [List.nil_append, Path.pieces, Text.splitWhere_of_not_mem he]; rfl⟩
  | cons c x ih =>
    obtain ⟨q, hq⟩ := ih
    rw [Path.pieces] at hq
    rw [Path.pieces, List.cons_append, Text.splitWhere]
    split
    · exact ⟨q, by rw [List.getLast?_cons, hq]; rfl⟩
    · cases hs : Text.splitWhere (· == '/') (x ++ e) with
      | nil => exact absurd hs (Text.splitWhere_ne_nil _ _)
      | cons s ss =>
        rw [hs] at hq
        cases ss with
        | nil =>
          obtain rfl : s = q ++ e := by simpa using hq
          exact ⟨c :: q, rfl⟩
        | cons u us => exact ⟨q, hq⟩

theorem exists_append_eq (folder name e : Text) : ∃ x, Path.append folder (name ++ e) = x ++ e := by
  unfold Path.append
  split
  · exact ⟨name, rfl⟩
  · split
    · exact ⟨folder ++ name, by simp⟩
    · exact ⟨folder ++ '/' :: name, by simp⟩

/-- The path leads to a file whose name ends with a module extension. -/
def IsModulePath (lib : Library) (d : Disk) (path : Text) : Prop :=
  Path.hasNull path = false ∧ ∃ place bytes, d.arrive path = .found place (.file bytes) ∧
    ∃ e ∈ lib.extensions, ∃ name, place.getLast? = some name ∧ e <:+ name

theorem isModulePath_of_moduleFile? {lib : Library} (hslash : ∀ e ∈ lib.extensions, '/' ∉ e) {d : Disk}
    {folder name path extension : Text} {exts : List Text} (hexts : ∀ e ∈ exts, e ∈ lib.extensions)
    (h : d.probe (moduleFile? folder name exts) = .ok (some (.moduleFile path extension))) :
    lib.IsModulePath d path := by
  induction exts with
  | nil => cases h
  | cons e exts ih =>
    obtain ⟨he, hexts⟩ := List.forall_mem_cons.mp hexts
    rw [moduleFile?, Disk.probe_bind, Disk.probe_present] at h
    obtain ⟨present, hpresent, h⟩ := exists_of_bind_eq_ok h
    obtain rfl := Except.ok.inj hpresent
    split at h
    · rename_i hpresent
      rw [Disk.probe_bind] at h
      obtain ⟨listed, hlisted, h⟩ := exists_of_bind_eq_ok h
      split at h
      · exact ih hexts h
      · rename_i hnot
        rw [Bool.not_eq_true] at hnot
        subst hnot
        obtain ⟨hnull, place, bytes, harrive⟩ := Disk.exists_file_of_probe hpresent hlisted
        cases h
        obtain ⟨x, hx⟩ := exists_append_eq folder name extension
        obtain ⟨q, hq⟩ := exists_getLast?_pieces (hslash extension he) x
        obtain ⟨last, hlast, hplace⟩ := FileNode.getLast?_of_walk_file (Text.splitWhere_ne_nil _ _)
          (Disk.arrive_found harrive).2.2
        rw [← hx] at hq
        obtain rfl : last = q ++ extension := Option.some.inj (hlast.symm.trans hq)
        exact ⟨hnull, place, bytes, harrive, extension, he, _, hplace, List.suffix_append q extension⟩
    · exact ih hexts h

theorem isModulePath_of_item? {lib : Library} (hslash : ∀ e ∈ lib.extensions, '/' ∉ e) {d : Disk}
    {parts : List Text} {path extension : Text}
    (h : d.probe (lib.item? parts) = .ok (some (.moduleFile path extension))) :
    lib.IsModulePath d path := by
  rw [item?, Disk.probe_bind] at h
  obtain ⟨root, -, h⟩ := exists_of_bind_eq_ok h
  split at h
  · split at h
    · cases h
    · rw [Disk.probe_bind] at h
      obtain ⟨package, -, h⟩ := exists_of_bind_eq_ok h
      split at h
      · cases h
      · exact isModulePath_of_moduleFile? hslash (fun _ he => he) h
  · cases h

theorem isModulePath_of_targetFrom? {lib : Library} (hslash : ∀ e ∈ lib.extensions, '/' ∉ e) {d : Disk}
    {parts : List Text} {k : Nat} {t : Target} (h : d.probe (lib.targetFrom? parts k) = .ok (some t)) :
    lib.IsModulePath d t.path := by
  induction k with
  | zero => cases h
  | succ k ih =>
    rw [targetFrom?, Disk.probe_bind] at h
    obtain ⟨item, hitem, h⟩ := exists_of_bind_eq_ok h
    split at h
    · exact ih h
    · cases h
    · cases h
      exact isModulePath_of_item? hslash hitem

/-- A dotted name that leads into a module leads to a module path. -/
theorem isModulePath_of_target? {lib : Library} (hslash : ∀ e ∈ lib.extensions, '/' ∉ e) {d : Disk}
    {dotted : Text} {t : Target} (h : d.probe (lib.target? dotted) = .ok (some t)) :
    lib.IsModulePath d t.path :=
  isModulePath_of_targetFrom? hslash h

end Library
end EditorInsight
