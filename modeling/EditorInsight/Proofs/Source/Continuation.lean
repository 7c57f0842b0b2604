import Mathlib.Data.List.Pairwise
import EditorInsight.Proofs.Source.Locality

/-!
# The indentation of lines that continue a header

A header is read from its lines without the blanks around them, so it does not depend on how the lines
that continue it are indented. The scan that reads the header passes over these lines. The scan of the
module passes over those of a function, but not over those of a method: such a line, if it is unindented
and looks like a declaration, is recorded as one. Apart from that, its indentation makes no difference.
-/

namespace EditorInsight

open Text

namespace Header

/-! Headers do not depend on indentation. -/

theorem balance_trimLeft (depth : Int) (line : Text) : balance depth (trimLeft line) = balance depth line := by
  obtain ⟨b, hb, hline⟩ := exists_blanks_trimLeft line
  have hcount (c : Char) (hc : isBlank c = false) : b.count c = 0 := by
    apply List.count_eq_zero_of_not_mem
    intro hmem
    rw [hb c hmem] at hc
    contradiction
  have hblanks : balance depth b = depth := by
    rw [balance_eq, hcount '(' (by decide), hcount ')' (by decide)]
    omega
  conv_rhs => rw [hline, balance_append, hblanks]

theorem collectFrom_set {joined : Option Text} {used : Nat} {depth budget : Int} {lines : List Text}
    {j : Nat} {line line' : Text} (hline : lines[j]? = some line) (htrim : trimLeft line' = trimLeft line) :
    collectFrom joined used depth budget (lines.set j line') =
      collectFrom joined used depth budget lines := by
  induction lines generalizing joined used depth budget j with
  | nil => rfl
  | cons x rest ih =>
    cases j with
    | zero =>
      obtain rfl : x = line := by simpa using hline
      have hbalance : balance depth line' = balance depth x := by
        rw [← balance_trimLeft, htrim, balance_trimLeft]
      have hjoin : joinLine joined line' = joinLine joined x := by
        unfold joinLine trim
        rw [htrim]
      rw [List.set_cons_zero, collectFrom_cons, collectFrom_cons, hbalance, hjoin]
    | succ j =>
      rw [List.set_cons_succ, collectFrom_cons, collectFrom_cons, ih (by simpa using hline)]

theorem read?_set (maxLines : Int) (x : Text) {rest : List Text} {j : Nat} {line line' : Text}
    (hline : rest[j]? = some line) (htrim : trimLeft line' = trimLeft line) :
    read? maxLines (x :: rest.set j line') = read? maxLines (x :: rest) := by
  have hnext : (x :: rest)[j + 1]? = some line := by simpa using hline
  have hcollect : collectFrom none 0 0 maxLines (x :: rest.set j line') = _ := collectFrom_set hnext htrim
  rw [read?, read?, collect?, collect?, hcollect]

end Header

namespace Outline

variable {layout : Layout} {lines : List Text} {line line' : Text} {skip index j k : Nat}

theorem headerAt?_set (cut : Text → Text) (x : Text) {rest : List Text} (hline : rest[j]? = some line)
    (htrim : trimLeft line' = trimLeft line) :
    headerAt? layout cut x (rest.set j line') = headerAt? layout cut x rest := by
  rw [headerAt?, headerAt?, Header.read?_set _ x hline htrim]

/-! Class bodies. -/

theorem methodFindings_of_skippable {x : Text} (h : isSkippable x = true) (index : Nat) (rest : List Text) :
    methodFindings layout 0 index (x :: rest) = methodFindings layout 0 (index + 1) rest := by
  rw [methodFindings, if_pos h]

/-- The line belongs to the body of a class: it says something and is indented enough. -/
structure InBody (layout : Layout) (x : Text) : Prop where
  isSkippable : ¬ isSkippable x = true
  isTopLevel : ¬ isTopLevel x = true
  indentation : ¬ (indentation x : Int) < layout.bodyIndent

theorem methodFindings_of_outside {x : Text} (hskippable : ¬ isSkippable x = true) (h : ¬ InBody layout x)
    (index : Nat) (rest : List Text) : methodFindings layout 0 index (x :: rest) = [] := by
  rw [methodFindings, if_neg hskippable]
  split
  · rfl
  · rename_i htop
    split
    · rfl
    · rename_i hindent
      exact absurd ⟨hskippable, htop, hindent⟩ h

theorem methodFindings_of_header {x : Text} {rest : List Text} {hd : Header} {n : Nat} (h : InBody layout x)
    (hheader : headerAt? layout trim x rest = some (hd, n)) (index : Nat) :
    methodFindings layout 0 index (x :: rest) =
      ⟨index, hd, n⟩ :: methodFindings layout (n - 1) (index + 1) rest := by
  rw [methodFindings, if_neg h.isSkippable, if_neg h.isTopLevel, if_neg h.indentation, hheader]

theorem methodFindings_of_no_header {x : Text} {rest : List Text} (h : InBody layout x)
    (hheader : headerAt? layout trim x rest = none) (index : Nat) :
    methodFindings layout 0 index (x :: rest) = methodFindings layout 0 (index + 1) rest := by
  rw [methodFindings, if_neg h.isSkippable, if_neg h.isTopLevel, if_neg h.indentation, hheader]

/-- The scan of a class body does not look at the line with number `j`: it passes over it as a part of a
header, or it ends above it. -/
def Unread (layout : Layout) (skip index : Nat) (lines : List Text) (j : Nat) : Prop :=
  j < skip ∨ IsContinuation (methodFindings layout skip index lines) (index + j) ∨
    ∃ e first, skip ≤ e ∧ e < j ∧ lines[e]? = some first ∧ StartsAnew first ∧
      ¬ IsContinuation (methodFindings layout skip index lines) (index + e)

theorem line_le_of_mem_methodFindings {f : MethodFinding} (h : f ∈ methodFindings layout skip index lines) :
    index ≤ f.line := by
  obtain ⟨i, _, _, hline, -⟩ := exists_headerAt?_of_mem h
  omega

theorem not_unread_zero : ¬ Unread layout 0 index lines 0 := by
  rintro (h | ⟨f, hf, hlt, -⟩ | ⟨e, -, -, h, -⟩)
  · omega
  · have hle := line_le_of_mem_methodFindings hf
    omega
  · omega

theorem Unread.tail {x : Text} {rest : List Text} (h : Unread layout skip index (x :: rest) (j + 1))
    (hsame : methodFindings layout skip index (x :: rest) = methodFindings layout (skip - 1) (index + 1) rest)
    (hfirst : skip = 0 → ¬ StartsAnew x) : Unread layout (skip - 1) (index + 1) rest j := by
  unfold Unread at h ⊢
  rw [hsame] at h
  rcases h with h | h | ⟨e, first, hse, hej, he, hanew, hnot⟩
  · left
    omega
  · right
    left
    rwa [show index + 1 + j = index + (j + 1) by omega]
  · cases e with
    | zero =>
      obtain rfl : x = first := by simpa using he
      exact absurd hanew (hfirst (by omega))
    | succ e =>
      refine .inr (.inr ⟨e, first, by omega, by omega, by simpa using he, hanew, ?_⟩)
      rwa [show index + 1 + e = index + (e + 1) by omega]

theorem Unread.below {x : Text} {rest : List Text} {hd : Header} {n : Nat}
    (h : Unread layout 0 index (x :: rest) (j + 1))
    (hsame : methodFindings layout 0 index (x :: rest) =
      ⟨index, hd, n⟩ :: methodFindings layout (n - 1) (index + 1) rest)
    (hfirst : ¬ StartsAnew x) : Unread layout (n - 1) (index + 1) rest j := by
  unfold Unread IsContinuation at h ⊢
  rw [hsame] at h
  rcases h with h | ⟨f, hf, hlt, hgt⟩ | ⟨e, first, -, hej, he, hanew, hnot⟩
  · omega
  · rcases List.mem_cons.mp hf with rfl | hf
    · simp only at hlt hgt
      left
      omega
    · exact .inr (.inl ⟨f, hf, by omega, by omega⟩)
  · cases e with
    | zero =>
      obtain rfl : x = first := by simpa using he
      exact absurd hanew hfirst
    | succ e =>
      have hbelow : n - 1 ≤ e := by
        by_contra hlt
        apply hnot
        refine ⟨⟨index, hd, n⟩, List.mem_cons_self, ?_⟩
        simp only
        omega
      refine .inr (.inr ⟨e, first, hbelow, by omega, by simpa using he, hanew, ?_⟩)
      rintro ⟨f, hf, hlt, hgt⟩
      exact hnot ⟨f, List.mem_cons_of_mem _ hf, by omega, by omega⟩

/-- The indentation of a line that the scan does not look at makes no difference to it. -/
theorem methodFindings_set (hline : lines[j]? = some line) (htrim : trimLeft line' = trimLeft line)
    (hunread : Unread layout skip index lines j) :
    methodFindings layout skip index (lines.set j line') = methodFindings layout skip index lines := by
  induction lines generalizing skip index j with
  | nil => rfl
  | cons x rest ih =>
    cases j with
    | zero =>
      cases skip with
      | zero => exact absurd hunread not_unread_zero
      | succ s => rfl
    | succ j =>
      have hrest : rest[j]? = some line := by simpa using hline
      rw [List.set_cons_succ]
      cases skip with
      | succ s => exact ih hrest (hunread.tail rfl (by omega))
      | zero =>
        by_cases hskippable : isSkippable x = true
        · rw [methodFindings_of_skippable hskippable, methodFindings_of_skippable hskippable]
          apply ih hrest
          apply hunread.tail (methodFindings_of_skippable hskippable index rest)
          intro _ hanew
          rw [hanew.2] at hskippable
          contradiction
        by_cases hbody : InBody layout x
        · have hfirst : ¬ StartsAnew x := fun hanew => hbody.isTopLevel hanew.1
          have hset : headerAt? layout trim x (rest.set j line') = _ := headerAt?_set trim x hrest htrim
          cases hheader : headerAt? layout trim x rest with
          | none =>
            have hpass := methodFindings_of_no_header hbody hheader index
            rw [hpass, methodFindings_of_no_header hbody (hset.trans hheader)]
            exact ih hrest (hunread.tail hpass fun _ => hfirst)
          | some found =>
            have hrecord := methodFindings_of_header hbody hheader index
            rw [hrecord, methodFindings_of_header hbody (hset.trans hheader)]
            exact congrArg _ (ih hrest (hunread.below hrecord hfirst))
        · rw [methodFindings_of_outside hskippable hbody, methodFindings_of_outside hskippable hbody]

/-! The scan of a module. -/

/-- The findings in the lines, each with the number of lines below it that belong to its header. -/
def recordings (layout : Layout) (skip index : Nat) : List Text → List (Finding × Nat)
  | [] => []
  | line :: rest =>
    match skip with
    | k + 1 => recordings layout k (index + 1) rest
    | 0 =>
      match findingAt? layout index line rest with
      | some r => r :: recordings layout r.2 (index + 1) rest
      | none => recordings layout 0 (index + 1) rest

theorem recordings_of_some {x : Text} {rest : List Text} {r : Finding × Nat}
    (h : findingAt? layout index x rest = some r) :
    recordings layout 0 index (x :: rest) = r :: recordings layout r.2 (index + 1) rest := by
  rw [recordings, h]

theorem recordings_of_none {x : Text} {rest : List Text} (h : findingAt? layout index x rest = none) :
    recordings layout 0 index (x :: rest) = recordings layout 0 (index + 1) rest := by
  rw [recordings, h]

theorem map_fst_recordings (layout : Layout) (skip index : Nat) (lines : List Text) :
    (recordings layout skip index lines).map Prod.fst = findings layout skip index lines := by
  induction lines generalizing skip index with
  | nil => rfl
  | cons x rest ih =>
    cases skip with
    | succ s => exact ih s (index + 1)
    | zero =>
      rw [findings]
      cases h : findingAt? layout index x rest with
      | none => rw [recordings_of_none h, ih]
      | some r => rw [recordings_of_some h, List.map_cons, ih]

theorem exists_findingAt?_of_mem_recordings {r : Finding × Nat} (h : r ∈ recordings layout skip index lines) :
    ∃ i x rest, index + skip ≤ i ∧ findingAt? layout i x rest = some r := by
  induction lines generalizing skip index with
  | nil => cases h
  | cons x rest ih =>
    have hlater {skip' : Nat} (hskip : skip ≤ skip' + 1) (h : r ∈ recordings layout skip' (index + 1) rest) :
        ∃ i x rest, index + skip ≤ i ∧ findingAt? layout i x rest = some r := by
      obtain ⟨i, y, below, hle, hat⟩ := ih h
      exact ⟨i, y, below, by omega, hat⟩
    cases skip with
    | succ s => exact hlater le_rfl h
    | zero =>
      cases hat : findingAt? layout index x rest with
      | none =>
        rw [recordings_of_none hat] at h
        exact hlater (by omega) h
      | some q =>
        rw [recordings_of_some hat] at h
        rcases List.mem_cons.mp h with rfl | h
        · exact ⟨index, x, rest, le_rfl, hat⟩
        · exact hlater (by omega) h

theorem le_line_of_mem_recordings {r : Finding × Nat} (h : r ∈ recordings layout skip index lines) :
    index + skip ≤ r.1.line := by
  obtain ⟨i, x, rest, hle, hat⟩ := exists_findingAt?_of_mem_recordings h
  rwa [findingAt?_line hat]

theorem count_eq_zero_of_class {r : Finding × Nat} (h : r ∈ recordings layout skip index lines)
    (hclass : r.1.symbol.kind = .classDecl) : r.2 = 0 := by
  obtain ⟨f, n⟩ := r
  obtain ⟨i, x, rest, -, hat⟩ := exists_findingAt?_of_mem_recordings h
  obtain ⟨-, -, ⟨_, _, -, -, rfl⟩ | ⟨_, _, -, hn, -⟩ | ⟨_, -, hn, -⟩⟩ := findingAt?_cases hat
  · cases hclass
  · exact hn
  · exact hn

theorem pairwise_recordings (layout : Layout) (skip index : Nat) (lines : List Text) :
    (recordings layout skip index lines).Pairwise fun r r' => r.1.line + r.2 < r'.1.line := by
  induction lines generalizing skip index with
  | nil => exact List.Pairwise.nil
  | cons x rest ih =>
    cases skip with
    | succ s => exact ih s (index + 1)
    | zero =>
      cases hat : findingAt? layout index x rest with
      | none =>
        rw [recordings_of_none hat]
        exact ih 0 (index + 1)
      | some r =>
        rw [recordings_of_some hat]
        apply List.Pairwise.cons _ (ih r.2 (index + 1))
        intro r' hr'
        have hle := le_line_of_mem_recordings hr'
        rw [findingAt?_line hat]
        omega

theorem eq_or_apart {r r' : Finding × Nat} (h : r ∈ recordings layout skip index lines)
    (h' : r' ∈ recordings layout skip index lines) :
    r = r' ∨ r.1.line + r.2 < r'.1.line ∨ r'.1.line + r'.2 < r.1.line := by
  let Apart (r r' : Finding × Nat) : Prop := r.1.line + r.2 < r'.1.line ∨ r'.1.line + r'.2 < r.1.line
  have hsymm : Std.Symm Apart := ⟨fun _ _ => Or.symm⟩
  have hpairwise : (recordings layout skip index lines).Pairwise Apart :=
    (pairwise_recordings layout skip index lines).imp Or.inl
  by_cases heq : r = r'
  · exact Or.inl heq
  · exact Or.inr (hpairwise.forall h h' heq)

theorem findingAt?_set (x : Text) {rest : List Text} (hline : rest[j]? = some line)
    (htrim : trimLeft line' = trimLeft line)
    (hbody : ∀ r, findingAt? layout index x rest = some r → r.1.symbol.kind = .classDecl →
      Unread layout 0 (index + 1) rest j) :
    findingAt? layout index x (rest.set j line') = findingAt? layout index x rest := by
  have hheader : headerAt? layout trimRight x (rest.set j line') = _ := headerAt?_set trimRight x hline htrim
  unfold findingAt? at hbody ⊢
  rw [hheader]
  split
  · rfl
  · rename_i hread
    rw [if_neg hread] at hbody
    cases hfound : headerAt? layout trimRight x rest with
    | some h => rfl
    | none =>
      rw [hfound] at hbody
      cases hclass : classLine? (trimRight x) with
      | none => rfl
      | some c =>
        rw [hclass] at hbody
        have hunread : Unread layout 0 (index + 1) rest j := hbody _ rfl rfl
        have hmethods : bodyMethods layout c.1 0 {} (rest.set j line') = bodyMethods layout c.1 0 {} rest := by
          rw [bodyMethods_eq_foldl layout c.1 0 (index + 1), methodFindings_set hline htrim hunread,
            ← bodyMethods_eq_foldl]
        simp only [hmethods]

/-- No scan of the body of a class above the line with number `j` looks at that line. -/
def UnreadByBodies (layout : Layout) (skip index : Nat) (lines : List Text) (j : Nat) : Prop :=
  ∀ r ∈ recordings layout skip index lines, r.1.symbol.kind = .classDecl → ∀ i x rest,
    r.1.line = index + i → lines.drop i = x :: rest → i < j → Unread layout 0 (r.1.line + 1) rest (j - (i + 1))

theorem UnreadByBodies.tail {x : Text} {rest : List Text} {skip' : Nat}
    (h : UnreadByBodies layout skip index (x :: rest) (j + 1))
    (hsub : ∀ r ∈ recordings layout skip' (index + 1) rest, r ∈ recordings layout skip index (x :: rest)) :
    UnreadByBodies layout skip' (index + 1) rest j := by
  intro r hr hclass i y below hri hdrop hij
  have hunread := h r (hsub r hr) hclass (i + 1) y below (by omega) (by simpa using hdrop) (by omega)
  rwa [show j + 1 - (i + 1 + 1) = j - (i + 1) by omega] at hunread

/-- The scan of the module passes over the line with number `j` as a part of a header. -/
def Passed (layout : Layout) (skip index : Nat) (lines : List Text) (j : Nat) : Prop :=
  j < skip ∨ ∃ r ∈ recordings layout skip index lines, r.1.line < index + j ∧ index + j ≤ r.1.line + r.2

theorem Passed.tail {x : Text} {rest : List Text} {skip' : Nat}
    (h : Passed layout skip index (x :: rest) (j + 1)) (hskip : skip ≤ skip' + 1)
    (hfirst : ∀ r ∈ recordings layout skip index (x :: rest),
      r ∈ recordings layout skip' (index + 1) rest ∨ r.1.line = index ∧ r.2 ≤ skip') :
    Passed layout skip' (index + 1) rest j := by
  rcases h with h | ⟨r, hr, hlt, hle⟩
  · left
    omega
  · rcases hfirst r hr with hr | ⟨hindex, hcount⟩
    · exact Or.inr ⟨r, hr, by omega, by omega⟩
    · left
      omega

def RecordedAt (layout : Layout) (skip index : Nat) (lines : List Text) (j : Nat) : Prop :=
  ∃ r ∈ recordings layout skip index lines, r.1.line = index + j

/-- The indentation of a line makes no difference to the scan of the module if no class body is read from
that line, and the line is passed over or declares nothing before and after the change. -/
theorem recordings_set (hline : lines[j]? = some line) (htrim : trimLeft line' = trimLeft line)
    (hbodies : UnreadByBodies layout skip index lines j)
    (hread : Passed layout skip index lines j ∨
      ¬ RecordedAt layout skip index lines j ∧ ¬ RecordedAt layout skip index (lines.set j line') j) :
    recordings layout skip index (lines.set j line') = recordings layout skip index lines := by
  induction lines generalizing skip index j with
  | nil => rfl
  | cons x rest ih =>
    cases j with
    | zero =>
      cases skip with
      | succ s => rfl
      | zero =>
        rcases hread with (hlt | ⟨r, hr, hlt, -⟩) | ⟨hnone, hnone'⟩
        · omega
        · have hle := le_line_of_mem_recordings hr
          omega
        · have hat (y : Text) (h : ¬ RecordedAt layout 0 index (y :: rest) 0) :
              findingAt? layout index y rest = none := by
            rw [Option.eq_none_iff_forall_ne_some]
            intro r hr
            apply h
            rw [RecordedAt, recordings_of_some hr]
            exact ⟨r, List.mem_cons_self, findingAt?_line hr⟩
          rw [List.set_cons_zero] at hnone' ⊢
          rw [recordings_of_none (hat x hnone), recordings_of_none (hat line' hnone')]
    | succ j =>
      have hrest : rest[j]? = some line := by simpa using hline
      rw [List.set_cons_succ] at hread ⊢
      -- One line further down, where `skip'` lines are still to be passed over.
      have hbelow (skip' : Nat) (hskip : skip ≤ skip' + 1)
          (hsub : ∀ r ∈ recordings layout skip' (index + 1) rest, r ∈ recordings layout skip index (x :: rest))
          (hsub' : ∀ r ∈ recordings layout skip' (index + 1) (rest.set j line'),
            r ∈ recordings layout skip index (x :: rest.set j line'))
          (hfirst : ∀ r ∈ recordings layout skip index (x :: rest),
            r ∈ recordings layout skip' (index + 1) rest ∨ r.1.line = index ∧ r.2 ≤ skip') :
          recordings layout skip' (index + 1) (rest.set j line') = recordings layout skip' (index + 1) rest := by
        apply ih hrest (hbodies.tail hsub)
        rcases hread with h | ⟨h, h'⟩
        · exact Or.inl (h.tail hskip hfirst)
        · exact Or.inr ⟨fun ⟨r, hr, hat⟩ => h ⟨r, hsub r hr, by omega⟩,
            fun ⟨r, hr, hat⟩ => h' ⟨r, hsub' r hr, by omega⟩⟩
      cases skip with
      | succ s => exact hbelow s (by omega) (fun _ h => h) (fun _ h => h) fun _ => Or.inl
      | zero =>
        have hset : findingAt? layout index x (rest.set j line') = findingAt? layout index x rest := by
          apply findingAt?_set x hrest htrim
          intro r hr hclass
          have hmem : r ∈ recordings layout 0 index (x :: rest) := by
            rw [recordings_of_some hr]
            exact List.mem_cons_self
          have hunread := hbodies r hmem hclass 0 x rest (findingAt?_line hr) rfl (by omega)
          rwa [findingAt?_line hr] at hunread
        cases hat : findingAt? layout index x rest with
        | none =>
          have hpass := recordings_of_none hat
          have hpass' := recordings_of_none (hset.trans hat)
          rw [hpass, hpass']
          apply hbelow 0 (by omega)
          · rw [hpass]
            exact fun _ h => h
          · rw [hpass']
            exact fun _ h => h
          · rw [hpass]
            exact fun _ => Or.inl
        | some r =>
          have hrecord := recordings_of_some hat
          have hrecord' := recordings_of_some (hset.trans hat)
          rw [hrecord, hrecord']
          apply congrArg
          apply hbelow r.2 (by omega)
          · rw [hrecord]
            exact fun _ => List.mem_cons_of_mem r
          · rw [hrecord']
            exact fun _ => List.mem_cons_of_mem r
          · rw [hrecord]
            intro r' hr'
            rcases List.mem_cons.mp hr' with rfl | hr'
            · exact Or.inr ⟨findingAt?_line hat, le_rfl⟩
            · exact Or.inl hr'

/-! The lines of a text that continue headers. -/

/-- The line with the given number is a second or later line of a recorded function header. -/
def ContinuesFunction (layout : Layout) (t : Text) (k : Nat) : Prop :=
  ∃ r ∈ recordings layout 0 0 (splitLines t), r.1.line < k ∧ k ≤ r.1.line + r.2

/-- The line with the given number is a second or later line of a recorded method header. -/
def ContinuesMethod (layout : Layout) (t : Text) (k : Nat) : Prop :=
  ∃ f ∈ findingsOf layout t, IsContinuation (bodyFindings layout (splitLines t) f) k

/-- A declaration is recorded for the line with the given number. -/
def DeclaredAt (layout : Layout) (t : Text) (k : Nat) : Prop := ∃ f ∈ findingsOf layout t, f.line = k

instance (fs : List MethodFinding) (k : Nat) : Decidable (IsContinuation fs k) :=
  inferInstanceAs (Decidable (∃ f ∈ fs, f.line < k ∧ k < f.line + f.lineCount))

instance (layout : Layout) (t : Text) (k : Nat) : Decidable (ContinuesFunction layout t k) :=
  inferInstanceAs (Decidable (∃ r ∈ recordings layout 0 0 (splitLines t), r.1.line < k ∧ k ≤ r.1.line + r.2))

instance (layout : Layout) (t : Text) (k : Nat) : Decidable (ContinuesMethod layout t k) :=
  inferInstanceAs (Decidable (∃ f ∈ findingsOf layout t, IsContinuation (bodyFindings layout (splitLines t) f) k))

instance (layout : Layout) (t : Text) (k : Nat) : Decidable (DeclaredAt layout t k) :=
  inferInstanceAs (Decidable (∃ f ∈ findingsOf layout t, f.line = k))

/-- The second text is the first one with other spaces and tabs in front of the line with number `k`. -/
def Reindents (t t' : Text) (k : Nat) : Prop :=
  ∃ line indent, (splitLines t)[k]? = some line ∧ (∀ c ∈ indent, c = ' ' ∨ c = '\t') ∧
    splitLines t' = (splitLines t).set k (indent ++ trimLeft line)

theorem map_fst_recordings_splitLines (layout : Layout) (t : Text) :
    (recordings layout 0 0 (splitLines t)).map Prod.fst = findingsOf layout t :=
  map_fst_recordings layout 0 0 (splitLines t)

theorem mem_findingsOf_of_recorded {t : Text} {r : Finding × Nat}
    (h : r ∈ recordings layout 0 0 (splitLines t)) : r.1 ∈ findingsOf layout t := by
  rw [← map_fst_recordings_splitLines]
  exact List.mem_map_of_mem h

theorem recordedAt_iff {t : Text} : RecordedAt layout 0 0 (splitLines t) k ↔ DeclaredAt layout t k := by
  rw [RecordedAt, DeclaredAt, ← map_fst_recordings_splitLines]
  simp

variable {t t' : Text} {c f : Finding} {g : MethodFinding}

theorem exists_startsAnew_of_mem (h : f ∈ findingsOf layout t) :
    ∃ first, (splitLines t)[f.line]? = some first ∧ StartsAnew first := by
  obtain ⟨first, n, hdrop, hat⟩ := exists_line_of_mem h
  obtain ⟨hskippable, htop, -⟩ := findingAt?_cases hat
  refine ⟨first, ?_, htop, hskippable⟩
  rw [← List.head?_drop, hdrop]
  rfl

theorem line_lt_of_mem_bodyFindings (h : g ∈ bodyFindings layout lines f) : f.line < g.line := by
  rw [bodyFindings_of_class (class_of_mem_bodyFindings h)] at h
  exact line_le_of_mem_methodFindings h

/-- A declaration between a class line and a line that continues a method header of the class stands
itself on a line that continues such a header: any other one ends the class body. -/
theorem continuesMethod_of_between (hc : c ∈ findingsOf layout t)
    (hg : g ∈ bodyFindings layout (splitLines t) c) (hk : k < g.line + g.lineCount)
    (hf : f ∈ findingsOf layout t) (hcf : c.line < f.line) (hfk : f.line < k) :
    ContinuesMethod layout t f.line := by
  refine ⟨c, hc, ?_⟩
  obtain ⟨first, hfirst, hanew⟩ := exists_startsAnew_of_mem hf
  have hclass := class_of_mem_bodyFindings hg
  rcases Nat.lt_trichotomy f.line g.line with hlt | heq | hgt
  · rw [bodyFindings_of_class hclass] at hg ⊢
    have hbody : ((splitLines t).drop (c.line + 1))[f.line - (c.line + 1)]? = some first := by
      rw [List.getElem?_drop, ← hfirst]
      congr 1
      omega
    have hindex : c.line + 1 + (f.line - (c.line + 1)) = f.line := by omega
    rcases skippable_or_continuation hg hbody (Nat.zero_le _) (by omega) hanew.1 with h | h
    · rw [hanew.2] at h
      contradiction
    · rwa [hindex] at h
  · -- A method header starts on an indented line.
    rw [bodyFindings_of_class hclass] at hg
    obtain ⟨i, x, rest, hi, hdrop, htop, -⟩ := exists_headerAt?_of_mem hg
    rw [List.drop_drop, ← hi, ← heq, List.drop_eq_getElem?_toList_append, hfirst] at hdrop
    obtain rfl : first = x := by simpa using congrArg List.head? hdrop
    rw [hanew.1] at htop
    contradiction
  · exact ⟨g, hg, hgt, by omega⟩

theorem unread_below_declared (hclass : c.symbol.kind = .classDecl) (hc : c ∈ findingsOf layout t)
    (hf : f ∈ findingsOf layout t) (hcf : c.line < f.line) (hfk : f.line < k)
    (hnot : ¬ ContinuesMethod layout t f.line) :
    Unread layout 0 (c.line + 1) ((splitLines t).drop (c.line + 1)) (k - (c.line + 1)) := by
  obtain ⟨first, hfirst, hanew⟩ := exists_startsAnew_of_mem hf
  refine .inr (.inr ⟨f.line - (c.line + 1), first, Nat.zero_le _, by omega, ?_, hanew, fun h => hnot ?_⟩)
  · rw [List.getElem?_drop, ← hfirst]
    congr 1
    omega
  · refine ⟨c, hc, ?_⟩
    rw [bodyFindings_of_class hclass]
    rwa [show c.line + 1 + (f.line - (c.line + 1)) = f.line by omega] at h

theorem unread_of_isContinuation (hclass : c.symbol.kind = .classDecl)
    (h : IsContinuation (bodyFindings layout (splitLines t) c) k) :
    Unread layout 0 (c.line + 1) ((splitLines t).drop (c.line + 1)) (k - (c.line + 1)) := by
  obtain ⟨g, hg, hlt, hgt⟩ := h
  have hcg := line_lt_of_mem_bodyFindings hg
  rw [bodyFindings_of_class hclass] at hg
  exact .inr (.inl ⟨g, hg, by omega, by omega⟩)

/-- No class body is read from a line that continues a header, if no declaration above it stands on a line
that continues a method header. -/
theorem unreadByBodies_of_continues
    (hcont : ContinuesFunction layout t k ∨ ContinuesMethod layout t k)
    (habove : ∀ f ∈ findingsOf layout t, f.line < k → ¬ ContinuesMethod layout t f.line) :
    UnreadByBodies layout 0 0 (splitLines t) k := by
  intro r hr hclass i x rest hi hdrop hik
  rw [Nat.zero_add] at hi
  subst hi
  have hrest : rest = (splitLines t).drop (r.1.line + 1) := by
    rw [← List.drop_drop, hdrop]
    rfl
  rw [hrest]
  have hmem := mem_findingsOf_of_recorded hr
  rcases hcont with ⟨p, hp, hlt, hle⟩ | ⟨c, hc, hcont⟩
  · have hpmem := mem_findingsOf_of_recorded hp
    rcases eq_or_apart hr hp with rfl | hrp | hpr
    · have hcount := count_eq_zero_of_class hr hclass
      omega
    · exact unread_below_declared hclass hmem hpmem (by omega) hlt (habove _ hpmem hlt)
    · omega
  · obtain ⟨g, hg, hlt, hgt⟩ := hcont
    have hcg := line_lt_of_mem_bodyFindings hg
    rcases Nat.lt_trichotomy r.1.line c.line with hrc | heq | hcr
    · exact unread_below_declared hclass hmem hc hrc (by omega) (habove c hc (by omega))
    · rw [heq]
      exact unread_of_isContinuation (class_of_mem_bodyFindings hg) ⟨g, hg, hlt, hgt⟩
    · exact absurd (continuesMethod_of_between hc hg hgt hmem hcr hik) (habove _ hmem hik)

theorem exists_isTopLevel_of_declaredAt (h : DeclaredAt layout t k) :
    ∃ first, (splitLines t)[k]? = some first ∧ isTopLevel first = true := by
  obtain ⟨f, hf, rfl⟩ := h
  obtain ⟨first, hfirst, hanew⟩ := exists_startsAnew_of_mem hf
  exact ⟨first, hfirst, hanew.1⟩

theorem Reindents.exists_set (h : Reindents t t' k) :
    ∃ line line', (splitLines t)[k]? = some line ∧ trimLeft line' = trimLeft line ∧
      splitLines t' = (splitLines t).set k line' := by
  obtain ⟨line, indent, hline, hindent, hset⟩ := h
  refine ⟨line, _, hline, ?_, hset⟩
  have hblank (c : Char) (hc : c ∈ indent) : isBlank c = true := by
    rcases hindent c hc with rfl | rfl <;> rfl
  rw [trimLeft_blanks_append hblank]
  cases htrim : trimLeft line with
  | nil => rfl
  | cons c r => exact trimLeft_cons (isBlank_of_trimLeft_eq_cons htrim) r

theorem Reindents.splitLines_eq (h : Reindents t t' k) (hbefore : DeclaredAt layout t k)
    (hafter : DeclaredAt layout t' k) : splitLines t' = splitLines t := by
  obtain ⟨line, line', hline, htrim, hset⟩ := h.exists_set
  obtain ⟨first, hfirst, htop⟩ := exists_isTopLevel_of_declaredAt hbefore
  obtain ⟨first', hfirst', htop'⟩ := exists_isTopLevel_of_declaredAt hafter
  obtain rfl : line = first := Option.some.inj (hline.symm.trans hfirst)
  obtain ⟨hlt, rfl⟩ := List.getElem?_eq_some_iff.mp hline
  obtain rfl : line' = first' := by
    rw [hset, List.getElem?_set_self hlt] at hfirst'
    exact Option.some.inj hfirst'
  rw [trimLeft_of_isTopLevel htop, trimLeft_of_isTopLevel htop'] at htrim
  rw [hset, htrim, List.set_getElem_self]

/-- Changing the indentation of a line that continues a header changes what is recorded exactly if a
declaration is recorded for the line itself before or after the change, but not both. This does not
happen to the lines of a function header. No declaration above may stand on a line of a method header: if
one does, the line may lie in a class body that still goes on, and end it when it is unindented. -/
theorem outline_of_reindented (layout : Layout) (t t' : Text) (k : Nat) (h : Reindents t t' k)
    (hcont : ContinuesFunction layout t k ∨ ContinuesMethod layout t k)
    (habove : ∀ f ∈ findingsOf layout t, f.line < k → ¬ ContinuesMethod layout t f.line) :
    (ContinuesFunction layout t k ∨ (DeclaredAt layout t k ↔ DeclaredAt layout t' k) →
      ofText layout t' = ofText layout t) ∧
    (findingsOf layout t' = findingsOf layout t ↔ (DeclaredAt layout t k ↔ DeclaredAt layout t' k)) := by
  obtain ⟨line, line', hline, htrim, hset⟩ := h.exists_set
  have hbodies := unreadByBodies_of_continues hcont habove
  have hfindings (hread : Passed layout 0 0 (splitLines t) k ∨ ¬ RecordedAt layout 0 0 (splitLines t) k ∧
      ¬ RecordedAt layout 0 0 ((splitLines t).set k line') k) :
      findingsOf layout t' = findingsOf layout t := by
    rw [← map_fst_recordings_splitLines, ← map_fst_recordings_splitLines, hset,
      recordings_set hline htrim hbodies hread]
  have hpassed (hfunction : ContinuesFunction layout t k) : findingsOf layout t' = findingsOf layout t := by
    obtain ⟨r, hr, hlt, hle⟩ := hfunction
    exact hfindings (Or.inl (Or.inr ⟨r, hr, by omega, by omega⟩))
  have hsame (hdeclared : DeclaredAt layout t k ↔ DeclaredAt layout t' k) :
      findingsOf layout t' = findingsOf layout t := by
    by_cases hbefore : DeclaredAt layout t k
    · rw [findingsOf, h.splitLines_eq hbefore (hdeclared.mp hbefore), findingsOf]
    · apply hfindings
      rw [← hset, recordedAt_iff, recordedAt_iff]
      exact Or.inr ⟨hbefore, fun hafter => hbefore (hdeclared.mpr hafter)⟩
  refine ⟨fun hcases => ?_, fun heq => ?_, hsame⟩
  · rw [ofText_eq_foldl, ofText_eq_foldl, hcases.elim hpassed hsame]
  · rw [DeclaredAt, DeclaredAt, heq]

theorem outline_of_reindented_headers :
    let t : Text := "class C:\n    def m(\n     x=1):\ndef f(a,\n  b=2):\n"
    let u : Text := "class C:\n    def m(\n\tx=1):\ndef f(a,\n  b=2):\n"
    let v : Text := "class C:\n    def m(\n     x=1):\ndef f(a,\nb=2):\n"
    (Reindents t u 2 ∧ ContinuesMethod {} t 2 ∧ ofText {} u = ofText {} t) ∧
      Reindents t v 4 ∧ ContinuesFunction {} t 4 ∧ ofText {} v = ofText {} t := by
  intro t u v
  have hu : Reindents t u 2 := ⟨"     x=1):", "\t", by decide +kernel, by simp, by decide +kernel⟩
  have hv : Reindents t v 4 := ⟨"  b=2):", "", by decide +kernel, by simp, by decide +kernel⟩
  have hmethod : ContinuesMethod {} t 2 := by decide +kernel
  have hfunction : ContinuesFunction {} t 4 := by decide +kernel
  have hnone : ¬ DeclaredAt {} t 2 ∧ ¬ DeclaredAt {} u 2 := by decide +kernel
  have habove : ∀ f ∈ findingsOf {} t, ¬ ContinuesMethod {} t f.line := by decide +kernel
  refine ⟨⟨hu, hmethod, ?_⟩, hv, hfunction, ?_⟩
  · exact (outline_of_reindented {} t u 2 hu (Or.inr hmethod) fun f hf _ => habove f hf).1
      (Or.inr (iff_of_false hnone.1 hnone.2))
  · exact (outline_of_reindented {} t v 4 hv (Or.inl hfunction) fun f hf _ => habove f hf).1 (Or.inl hfunction)

/-- Without indentation the second line of a method header is recorded as a variable. -/
theorem method_header_line_declared :
    let t : Text := "class C:\n    def m(self,\n          x=1):\n        pass\n"
    let t' : Text := "class C:\n    def m(self,\nx=1):\n        pass\n"
    Reindents t t' 2 ∧ ContinuesMethod {} t 2 ∧ ContinuesMethod {} t' 2 ∧ ¬ DeclaredAt {} t 2 ∧
      (ofText {} t).topLevel.get? "x" = none ∧
      (ofText {} t').topLevel.get? "x" = some (Symbol.binding "x") := by
  intro t t'
  have hreindents : Reindents t t' 2 := ⟨"          x=1):", "", by decide +kernel, by simp, by decide +kernel⟩
  exact ⟨hreindents, by decide +kernel⟩

end Outline
end EditorInsight
