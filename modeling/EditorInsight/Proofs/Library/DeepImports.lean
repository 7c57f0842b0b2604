import EditorInsight.Proofs.Library.FileSystem
import EditorInsight.Proofs.Source.DottedChains
import EditorInsight.Proofs.Text.Order

/-!
# The modules that a text refers to

Each chain of a text that starts with an import stands for the longest of its initial parts, of two names or more,
that exists as a module. The modules that a text refers to are those of its chains, in order and each once. As a line
feed divides the chains, the modules of two texts on lines of their own are those of the one and those of the other.
-/

namespace EditorInsight.Library

open Text Source

variable {lib : Library} {answer : (q : FileQuestion) → Except Path.Fault q.Answer}

/-- The longest initial part of the chain, of two names or more, that exists as a module. -/
def IsLongestModule (lib : Library) (answer : (q : FileQuestion) → Except Path.Fault q.Answer) (parts : List Text)
    (name : Text) : Prop :=
  ∃ k, 2 ≤ k ∧ k ≤ parts.length ∧ name = joinDotted (parts.take k) ∧ (lib.hasModule name).run answer = .ok true ∧
    ∀ j, k < j → j ≤ parts.length → (lib.hasModule (joinDotted (parts.take j))).run answer = .ok false

theorem IsLongestModule.unique {parts : List Text} {name name' : Text} (h : IsLongestModule lib answer parts name)
    (h' : IsLongestModule lib answer parts name') : name = name' := by
  obtain ⟨k, -, hk, rfl, hhas, hlonger⟩ := h
  obtain ⟨k', -, hk', rfl, hhas', hlonger'⟩ := h'
  rcases Nat.lt_trichotomy k k' with hlt | rfl | hlt
  · rw [hlonger k' hlt hk'] at hhas'
    cases hhas'
  · rfl
  · rw [hlonger' k hlt hk] at hhas
    cases hhas

section Total

variable (hpresent : ∀ p, ∃ b, answer (.present p) = .ok b)
include hpresent

theorem exists_run_anyPresent (paths : List Text) : ∃ b, (anyPresent paths).run answer = .ok b := by
  induction paths with
  | nil => exact ⟨false, rfl⟩
  | cons p paths ih =>
    obtain ⟨b, hb⟩ := hpresent p
    rw [anyPresent, Dialogue.run_bind, Probe.present, Dialogue.run_question, hb]
    cases b with
    | true => exact ⟨true, rfl⟩
    | false => exact ih

theorem exists_run_hasModule (lib : Library) (name : Text) : ∃ b, (lib.hasModule name).run answer = .ok b := by
  unfold hasModule hasParts
  cases (splitDotted name).getLast? with
  | none => exact ⟨false, rfl⟩
  | some last => exact exists_run_anyPresent hpresent _

/-- The search from the longest initial part down ends at the first that exists, or has seen none that does. -/
theorem run_longestModule? (lib : Library) (parts : List Text) (n : Nat) :
    (∃ k, 2 ≤ k ∧ k ≤ n + 1 ∧ (lib.hasModule (joinDotted (parts.take k))).run answer = .ok true ∧
      (∀ j, k < j → j ≤ n + 1 → (lib.hasModule (joinDotted (parts.take j))).run answer = .ok false) ∧
      (lib.longestModule? parts n).run answer = .ok (some (joinDotted (parts.take k)))) ∨
    (∀ k, 2 ≤ k → k ≤ n + 1 → (lib.hasModule (joinDotted (parts.take k))).run answer = .ok false) ∧
      (lib.longestModule? parts n).run answer = .ok none := by
  induction n with
  | zero => exact .inr ⟨fun k hk hle => by omega, rfl⟩
  | succ n ih =>
    obtain ⟨b, hb⟩ := exists_run_hasModule hpresent lib (joinDotted (parts.take (n + 2)))
    have hrun : (lib.longestModule? parts (n + 1)).run answer =
        if b then .ok (some (joinDotted (parts.take (n + 2)))) else (lib.longestModule? parts n).run answer := by
      rw [longestModule?, Dialogue.run_bind, hb]
      cases b <;> rfl
    rw [hrun]
    cases b with
    | true => exact .inl ⟨n + 2, by omega, by omega, hb, fun j hlt hle => by omega, rfl⟩
    | false =>
      -- the longest part does not exist, and what holds of the shorter ones holds of all
      have hlongest : ∀ j, j = n + 2 → (lib.hasModule (joinDotted (parts.take j))).run answer = .ok false := by
        rintro j rfl
        exact hb
      rcases ih with ⟨k, htwo, hk, hhas, hlonger, hfound⟩ | ⟨hnone, hfound⟩
      · refine .inl ⟨k, htwo, by omega, hhas, fun j hlt hle => ?_, hfound⟩
        rcases Nat.lt_or_eq_of_le hle with hle | heq
        · exact hlonger j hlt (by omega)
        · exact hlongest j heq
      · refine .inr ⟨fun k htwo hle => ?_, hfound⟩
        rcases Nat.lt_or_eq_of_le hle with hle | heq
        · exact hnone k htwo (by omega)
        · exact hlongest k heq

/-- To ask once more for the chain without its last part finds nothing new. -/
theorem run_referredModule?_eq (lib : Library) (parts : List Text) :
    (lib.referredModule? parts).run answer = (lib.longestModule? parts (parts.length - 1)).run answer := by
  rw [referredModule?, Dialogue.run_bind]
  rcases run_longestModule? hpresent lib parts (parts.length - 1) with ⟨k, -, -, -, -, hfound⟩ | ⟨hnone, hfound⟩
  · rw [hfound]
    rfl
  · rw [hfound]
    change Dialogue.run answer (if parts.length ≥ 3 then _ else _) = _
    split
    · rename_i hthree
      have hlast := hnone (parts.length - 1) (by omega) (by omega)
      rw [← List.dropLast_eq_take] at hlast
      rw [Dialogue.run_bind, hlast]
      rfl
    · rfl

theorem run_referredModule? (lib : Library) (parts : List Text) :
    ∃ found, (lib.referredModule? parts).run answer = .ok found ∧
      ∀ name, found = some name ↔ IsLongestModule lib answer parts name := by
  rw [run_referredModule?_eq hpresent]
  rcases run_longestModule? hpresent lib parts (parts.length - 1) with
    ⟨k, htwo, hk, hhas, hlonger, hfound⟩ | ⟨hnone, hfound⟩
  · have hlongest : IsLongestModule lib answer parts (joinDotted (parts.take k)) :=
      ⟨k, htwo, by omega, rfl, hhas, fun j hlt hle => hlonger j hlt (by omega)⟩
    refine ⟨_, hfound, fun name => ?_⟩
    constructor
    · intro h
      rw [← Option.some.inj h]
      exact hlongest
    · intro h
      rw [hlongest.unique h]
  · refine ⟨_, hfound, fun name => ?_⟩
    constructor
    · intro h
      cases h
    · rintro ⟨k, htwo, hk, rfl, hhas, -⟩
      rw [hnone k htwo (by omega)] at hhas
      cases hhas

theorem run_referredModules (lib : Library) (imports : List Text) (chains : List (List Text)) :
    ∃ names, (lib.referredModules imports chains).run answer = .ok names ∧ ∀ name, name ∈ names ↔
      ∃ parts ∈ chains, (∃ first ∈ imports, parts.head? = some first) ∧ IsLongestModule lib answer parts name := by
  induction chains with
  | nil => exact ⟨[], rfl, by simp⟩
  | cons parts chains ih =>
    obtain ⟨names, hnames, hmem⟩ := ih
    obtain ⟨found, hfound, hlongest⟩ := run_referredModule? hpresent lib parts
    have hhead : parts.head?.any (imports.elem ·) = true ↔ ∃ first ∈ imports, parts.head? = some first := by
      cases parts.head? <;> simp
    rw [referredModules]
    by_cases hrooted : parts.head?.any (imports.elem ·) = true
    · refine ⟨found.toList ++ names, ?_, fun name => ?_⟩
      · rw [if_pos hrooted, Dialogue.run_bind, hfound]
        change Dialogue.run answer (_ >>= _) = _
        rw [Dialogue.run_bind, hnames]
        rfl
      · simp only [List.mem_append, Option.mem_toList, hlongest, hmem, List.mem_cons, exists_eq_or_imp,
          hhead.mp hrooted, true_and]
    · refine ⟨names, ?_, fun name => ?_⟩
      · rw [if_neg hrooted, Dialogue.run_bind]
        change Dialogue.run answer (_ >>= _) = _
        rw [Dialogue.run_bind, hnames]
        rfl
      · simp only [hmem, List.mem_cons, exists_eq_or_imp, mt hhead.mpr hrooted, false_and, false_or]

end Total

/-- The modules that a text refers to are the longest existing initial parts of its chains that start with an import,
in order and each once. The last question about a chain, for all but its last part, changes nothing. A line feed
between two texts joins their modules. -/
theorem deepImports_eq_longest_modules (lib : Library) (answer : (q : FileQuestion) → Except Path.Fault q.Answer)
    (hpresent : ∀ p, ∃ b, answer (.present p) = .ok b) (entries : List DirEntry)
    (hroot : answer (.list lib.root) = .ok (some entries)) (imports : List Text) :
    (∀ text, ∃ names, (lib.deepImports text imports).run answer = .ok names ∧ names.Pairwise (· < ·) ∧
      ∀ name, name ∈ names ↔ ∃ chains, Scan none text chains ∧ ∃ parts ∈ chains,
        (∃ first ∈ imports, parts.head? = some first) ∧ IsLongestModule lib answer parts name) ∧
    (∀ parts, (lib.referredModule? parts).run answer = (lib.longestModule? parts (parts.length - 1)).run answer) ∧
    ∀ above below, ∃ names namesAbove namesBelow,
      (lib.deepImports (above ++ '\n' :: below) imports).run answer = .ok names ∧
      (lib.deepImports above imports).run answer = .ok namesAbove ∧
      (lib.deepImports below imports).run answer = .ok namesBelow ∧
      names.Pairwise (· < ·) ∧ ∀ name, name ∈ names ↔ name ∈ namesAbove ∨ name ∈ namesBelow := by
  have hnames : ∀ text, ∃ names, (lib.deepImports text imports).run answer = .ok names ∧ names.Pairwise (· < ·) ∧
      ∀ name, name ∈ names ↔ ∃ parts ∈ references text, (∃ first ∈ imports, parts.head? = some first) ∧
        IsLongestModule lib answer parts name := by
    intro text
    obtain ⟨names, hrun, hmem⟩ := run_referredModules hpresent lib imports (references text)
    refine ⟨_, ?_, pairwise_lt_dedupNeighbours_sortOn names, fun name => ?_⟩
    · rw [deepImports, Dialogue.run_bind, Probe.isFolder, Dialogue.run_bind, Probe.list, Dialogue.run_question, hroot]
      change Dialogue.run answer (lib.referredModules imports (references text) >>= _) = _
      rw [Dialogue.run_bind, hrun]
      rfl
    · rw [mem_dedupNeighbours_sortOn, hmem]
  refine ⟨fun text => ?_, run_referredModule?_eq hpresent lib, fun above below => ?_⟩
  · obtain ⟨names, hrun, hsorted, hmem⟩ := hnames text
    refine ⟨names, hrun, hsorted, fun name => ?_⟩
    simp only [scan_iff, exists_eq_left]
    exact hmem name
  · obtain ⟨names, hrun, hsorted, hmem⟩ := hnames (above ++ '\n' :: below)
    obtain ⟨namesAbove, hrunAbove, -, hmemAbove⟩ := hnames above
    obtain ⟨namesBelow, hrunBelow, -, hmemBelow⟩ := hnames below
    refine ⟨names, namesAbove, namesBelow, hrun, hrunAbove, hrunBelow, hsorted, fun name => ?_⟩
    rw [hmem, hmemAbove, hmemBelow, references_append_cons (by decide +kernel) (by decide)]
    simp only [List.mem_append, or_and_right, exists_or]

theorem deepImports_eq_longest_modules_packages :
    let d : Disk := { top := .folder [("libs", .folder [("billing", .folder
      [("invoices", .folder [("render.apy", .file [])]), ("invoices.apy", .file []), ("tools.py", .file [])])])] }
    let lib : Library := { root := "/libs" }
    ∃ names, (lib.deepImports "billing.invoices.render.page(x.y)\nbilling.tools.total" ["billing"]).run
        d.fileSystem.answer = .ok names ∧ names.Pairwise (· < ·) ∧
      ∀ name, name ∈ names ↔ name = "billing.invoices.render" ∨ name = "billing.tools" := by
  intro d lib
  obtain ⟨-, -, hunion⟩ := deepImports_eq_longest_modules lib d.fileSystem.answer
    (fun p => ⟨_, d.fileSystem.answer_present p⟩) [⟨"billing", true⟩] (by decide +kernel) ["billing"]
  obtain ⟨names, above, below, hrun, habove, hbelow, hsorted, hmem⟩ :=
    hunion "billing.invoices.render.page(x.y)" "billing.tools.total"
  have hfirst : (lib.deepImports "billing.invoices.render.page(x.y)" ["billing"]).run d.fileSystem.answer =
      .ok ["billing.invoices.render"] := by decide +kernel
  have hsecond : (lib.deepImports "billing.tools.total" ["billing"]).run d.fileSystem.answer =
      .ok ["billing.tools"] := by decide +kernel
  obtain rfl := Except.ok.inj (habove.symm.trans hfirst)
  obtain rfl := Except.ok.inj (hbelow.symm.trans hsecond)
  refine ⟨names, hrun, hsorted, fun name => ?_⟩
  rw [hmem, List.mem_singleton, List.mem_singleton]

end EditorInsight.Library
