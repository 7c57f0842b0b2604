import EditorInsight.Proofs.Source.CursorWords
import EditorInsight.Service.Inquiry

/-!
# Expressions that the cursor is at

A dotted expression that stands by itself in a line is read wherever the cursor touches it, and a chain before
a final dot is read as the chain to complete.
-/

namespace EditorInsight

open Text

namespace Text

theorem splitDotted_append {chain label : Text} (hlabel : isIdentifier label = true) :
    splitDotted (chain ++ '.' :: label) = splitDotted chain ++ [label] := by
  have hword := isWord_of_isIdentifier hlabel
  have hsplit : splitWhere (· == '.') label = [label] := splitWhere_of_not_mem (hword.not_mem (by decide))
  rw [splitDotted, splitWhere_append (by simp), List.filter_append, hsplit, splitDotted,
    List.filter_cons_of_pos (by simpa using hword.ne_nil), List.filter_nil]

theorem splitDotted_of_isChain {chain : Text} (h : isChain chain = true) :
    splitDotted chain = splitWhere (· == '.') chain := by
  rw [isChain, Bool.and_eq_true, List.all_eq_true, List.all_eq_true] at h
  exact List.filter_eq_self.mpr fun part hpart => by simpa using (isWord_of_isIdentifier (h.2 part hpart)).ne_nil

theorem joinDotted_splitDotted {chain : Text} (h : isChain chain = true) :
    joinDotted (splitDotted chain) = chain := by
  rw [splitDotted_of_isChain h]
  exact join_splitWhere '.' chain

theorem splitDotted_ne_nil {chain : Text} (h : isChain chain = true) : splitDotted chain ≠ [] := by
  rw [splitDotted_of_isChain h]
  exact splitWhere_ne_nil _ _

theorem exists_isIdentStart {t : Text} (h : isIdentifier t = true) : ∃ c ∈ t, isIdentStart c = true := by
  cases t with
  | nil => cases h
  | cons c t =>
    rw [isIdentifier, Bool.and_eq_true] at h
    exact ⟨c, List.mem_cons_self, h.1⟩

end Text

namespace Cursor

/-- The expression stands by itself in the line, and the column is in it or at one of its ends. -/
def IsOn (line : Text) (column : Int) (expression : Text) : Prop :=
  ∃ before after, line = before ++ (expression ++ after) ∧
    (∀ c ∈ before.getLast?, isExpressionChar c = false) ∧ (∀ c ∈ after.head?, isExpressionChar c = false) ∧
    before.length ≤ column ∧ column ≤ (before.length + expression.length : Nat)

theorem takeWhile_append_of_head? {p : Char → Bool} {x y : Text} (hx : ∀ c ∈ x, p c = true)
    (hy : ∀ c ∈ y.head?, p c = false) : (x ++ y).takeWhile p = x := by
  rw [List.takeWhile_append_of_pos hx]
  cases y with
  | nil => simp
  | cons c y => rw [List.takeWhile_cons_of_neg (by simp [hy c rfl]), List.append_nil]

theorem expressionAt?_eq_of_isOn {line expression : Text} {column : Int}
    (hchars : ∀ c ∈ expression, isExpressionChar c = true) (h : IsOn line column expression) :
    expressionAt? line column = if expression.any isIdentStart then some expression else none := by
  obtain ⟨before, after, rfl, hbefore, hafter, hlow, hhigh⟩ := h
  obtain ⟨k, hcolumn, hk⟩ : ∃ k, column.toNat = before.length + k ∧ k ≤ expression.length :=
    ⟨column.toNat - before.length, by omega, by omega⟩
  have hleft : ((before ++ (expression ++ after)).take column.toNat).reverse.takeWhile isExpressionChar =
      (expression.take k).reverse := by
    rw [hcolumn, List.take_append, List.take_of_length_le (by omega), Nat.add_sub_cancel_left,
      List.take_append_of_le_length hk, List.reverse_append]
    refine takeWhile_append_of_head? (fun c hc => ?_) fun c hc => ?_
    · exact hchars c (List.mem_of_mem_take (List.mem_reverse.mp hc))
    · rw [List.head?_reverse] at hc
      exact hbefore c hc
  have hright : ((before ++ (expression ++ after)).drop column.toNat).takeWhile isExpressionChar =
      expression.drop k := by
    rw [hcolumn, List.drop_append, List.drop_of_length_le (by omega), Nat.add_sub_cancel_left, List.nil_append,
      List.drop_append_of_le_length hk]
    exact takeWhile_append_of_head? (fun c hc => hchars c (List.mem_of_mem_drop hc)) hafter
  unfold expressionAt?
  simp only [hleft, hright, List.reverse_reverse, List.take_append_drop]

theorem expressionAt?_of_isOn {line expression : Text} {column : Int}
    (hchars : ∀ c ∈ expression, isExpressionChar c = true)
    (hstart : ∃ c ∈ expression, isIdentStart c = true) (h : IsOn line column expression) :
    expressionAt? line column = some expression := by
  rw [expressionAt?_eq_of_isOn hchars h, if_pos (List.any_eq_true.mpr hstart)]

/-- The text ends with the chain, which stands by itself, and a dot. -/
def EndsAfter (before chain : Text) : Prop :=
  ∃ u, before = u ++ chain ++ ['.'] ∧ ∀ c ∈ u.getLast?, isExpressionChar c = false

theorem completionChain?_of_endsAfter {before chain : Text} (hchain : isChain chain = true)
    (h : EndsAfter before chain) : Workspace.completionChain? before = some chain := by
  obtain ⟨u, rfl, hu⟩ := h
  have hdot : beforeDot? (u ++ chain ++ ['.']) = some (u ++ chain) := by
    simp [beforeDot?]
  have hsuffix : longestSuffix? isChain (u ++ chain) = some chain := by
    refine longestSuffix?_append hchain fun v hne hv => ?_
    -- A longer suffix has a character in it that no chain has.
    obtain ⟨init, last, rfl⟩ := (List.eq_nil_or_concat v).resolve_left hne
    rw [List.concat_eq_append] at hv ⊢
    obtain ⟨w, rfl⟩ := hv
    have hlast : isExpressionChar last = false := hu last (by simp)
    by_contra hlonger
    have hall := isExpressionChar_of_isChain (Bool.not_eq_false _ ▸ hlonger) last (by simp)
    rw [hlast] at hall
    cases hall
  have htable : tableChainBeforeDot? (u ++ chain ++ ['.']) = none := by
    have hne : chain ≠ [] := by
      rintro rfl
      cases hchain
    obtain ⟨init, last, rfl⟩ := (List.eq_nil_or_concat chain).resolve_left hne
    have hlast := isExpressionChar_of_isChain hchain last (by simp)
    have hbracket : last ≠ ']' := by
      rintro rfl
      cases hlast
    have hsubscript : beforeSubscript? (u ++ init.concat last).reverse = none := by
      rw [List.concat_eq_append, ← List.append_assoc, List.reverse_append]
      unfold beforeSubscript?
      split
      · rename_i heq
        exact absurd (List.cons.inj heq).1 hbracket
      · rfl
    rw [tableChainBeforeDot?, hdot, Option.bind_some, hsubscript]
  rw [Workspace.completionChain?, htable]
  change chainBeforeDot? _ = _
  rw [chainBeforeDot?, hdot]
  exact hsuffix

end Cursor
end EditorInsight
