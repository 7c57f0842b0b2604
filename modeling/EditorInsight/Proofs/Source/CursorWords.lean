import EditorInsight.Proofs.Files.Path
import EditorInsight.Proofs.Text.Blank
import EditorInsight.Source.Cursor

/-!
# The words around a cursor

Whatever stands around a cursor, what is taken from there are words joined by dots, and for a table an
identifier.
-/

namespace EditorInsight

open Text

namespace Text

structure IsWord (t : Text) : Prop where
  ne_nil : t ≠ []
  isIdentPart : ∀ c ∈ t, isIdentPart c = true

theorem IsWord.not_mem {t : Text} (h : IsWord t) {c : Char} (hc : Text.isIdentPart c = false) :
    c ∉ t := by
  intro hmem
  rw [h.isIdentPart c hmem] at hc
  cases hc

theorem IsWord.isProper_append {t e : Text} (h : IsWord t) (hslash : '/' ∉ e) (hnull : '\x00' ∉ e) :
    Path.IsProper (t ++ e) := by
  have hdot : '.' ∉ t := h.not_mem (by decide)
  cases t with
  | nil => exact absurd rfl h.ne_nil
  | cons c t =>
    have hc : c ≠ '.' := fun hc => hdot (hc ▸ List.mem_cons_self)
    refine ⟨⟨by simp, ?_⟩, by simp [hc], by simp [hc], ?_⟩
    · rw [List.mem_append, not_or]
      exact ⟨h.not_mem (by decide), hslash⟩
    · rw [List.mem_append, not_or]
      exact ⟨h.not_mem (by decide), hnull⟩

theorem isWord_of_isIdentifier {t : Text} (h : isIdentifier t = true) : IsWord t := by
  refine ⟨?_, fun c hc => isIdentPart_of_mem_identifier h hc⟩
  rintro rfl
  cases h

end Text

namespace Cursor

theorem isWord_of_mem_splitDotted {t s : Text} (ht : ∀ c ∈ t, isExpressionChar c = true)
    (hs : s ∈ splitDotted t) : IsWord s := by
  obtain ⟨hmem, hne⟩ := List.mem_filter.mp hs
  refine ⟨by simpa using hne, fun c hc => ?_⟩
  have hdot : c ≠ '.' := fun hdot => not_mem_of_mem_splitWhere hmem (hdot ▸ hc)
  have hchar := ht c (mem_of_mem_splitWhere hmem hc)
  simpa [isExpressionChar, hdot] using hchar

theorem isExpressionChar_of_isChain {t : Text} (h : isChain t = true) :
    ∀ c ∈ t, isExpressionChar c = true := by
  rw [isChain, Bool.and_eq_true, List.all_eq_true] at h
  exact h.1

/-- Brackets behind a chain belong to its last word. -/
theorem exists_splitDotted_brackets {t : Text} (h : isChain t = true) :
    ∃ (init : List Text) (last : Text), splitDotted (t ++ "[]") = init ++ [last ++ "[]"] ∧
      (∀ w ∈ init, IsWord w) ∧ IsWord last := by
  obtain ⟨init, last, ht, hbrackets⟩ := exists_splitWhere_append_right
    (show '.' ∉ ("[]" : Text) by decide) t
  rw [isChain, Bool.and_eq_true, ht] at h
  have hword {w : Text} (hw : w ∈ init ++ [last]) : IsWord w :=
    isWord_of_isIdentifier (List.all_eq_true.mp h.2 w hw)
  have hwords : ∀ w ∈ init, IsWord w := fun w hw => hword (List.mem_append_left _ hw)
  refine ⟨init, last, ?_, hwords, hword (by simp)⟩
  have hkept : init.filter (· ≠ []) = init :=
    List.filter_eq_self.mpr fun w hw => by simpa using (hwords w hw).ne_nil
  rw [splitDotted, hbrackets, List.filter_append, hkept]
  simp

theorem isExpressionChar_of_expressionAt? {line : Text} {column : Int} {e : Text}
    (h : expressionAt? line column = some e) : ∀ c ∈ e, isExpressionChar c = true := by
  unfold expressionAt? at h
  dsimp only at h
  split at h
  · obtain rfl := Option.some.inj h
    intro c hc
    rcases List.mem_append.mp hc with hc | hc
    · exact List.mem_takeWhile_imp (List.mem_reverse.mp hc)
    · exact List.mem_takeWhile_imp hc
  · cases h

theorem isChain_of_enclosingCall? {before : Text} {call : CallSite}
    (h : enclosingCall? before = some call) : isChain call.callee = true := by
  unfold enclosingCall? at h
  split at h
  · cases h
  · obtain ⟨callee, hcallee, rfl⟩ := Option.map_eq_some_iff.mp h
    exact (longestSuffix?_eq_some_iff.mp hcallee).2.1

theorem isChain_of_chainBeforeDot? {before chain : Text} (h : chainBeforeDot? before = some chain) :
    isChain chain = true := by
  obtain ⟨t, -, ht⟩ := Option.bind_eq_some_iff.mp h
  exact (longestSuffix?_eq_some_iff.mp ht).2.1

theorem isChain_of_tableChainBeforeDot? {before chain : Text}
    (h : tableChainBeforeDot? before = some chain) : isChain chain = true := by
  unfold tableChainBeforeDot? at h
  split at h
  · cases h
  · exact (longestSuffix?_eq_some_iff.mp h).2.1

theorem isIdentifier_of_tableReference? {t name : Text} {n : Nat}
    (h : tableReference? t = some (name, n)) : isIdentifier name = true := by
  unfold tableReference? at h
  split at h
  · split at h
    · split at h
      · rename_i hread
        split at h
        · obtain ⟨rfl, -⟩ := Prod.mk.inj (Option.some.inj h)
          exact (identifier?_eq_some hread).2.1
        · cases h
      · cases h
    · cases h
  · cases h

theorem isIdentifier_of_dottedTableReference? {t name : Text} {n : Nat}
    (h : dottedTableReference? t = some (name, n)) : isIdentifier name = true := by
  unfold dottedTableReference? at h
  split at h
  · obtain ⟨⟨name', m⟩, hread, hsame⟩ := Option.map_eq_some_iff.mp h
    obtain ⟨rfl, -⟩ := Prod.mk.inj hsame
    exact isIdentifier_of_tableReference? hread
  · exact isIdentifier_of_tableReference? h

theorem isIdentifier_of_tableFrom? {column : Int} {index skip : Nat} {t name : Text}
    (h : tableFrom? column index skip t = some name) : isIdentifier name = true := by
  fun_induction tableFrom? column index skip t with
  | case1 => cases h
  | case2 index c r k ih => exact ih h
  | case3 index c r name' n hread hcovers =>
    obtain rfl := Option.some.inj h
    exact isIdentifier_of_dottedTableReference? hread
  | case4 index c r name' n hread hcovers ih => exact ih h
  | case5 index c r hread ih => exact ih h

theorem isIdentifier_of_tableAt? {line : Text} {column : Int} {name : Text}
    (h : tableAt? line column = some name) : isIdentifier name = true :=
  isIdentifier_of_tableFrom? h

end Cursor
end EditorInsight
