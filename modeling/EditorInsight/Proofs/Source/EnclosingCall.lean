import EditorInsight.Proofs.Source.Brackets
import EditorInsight.Proofs.Source.CursorWords
import EditorInsight.Proofs.Text.Lines

/-!
# The call that the cursor is in

Parentheses are matched from left to right with a stack of positions. The search backward from the cursor, which
only counts, finds the innermost position that is left on the stack. The callee is the longest chain before it, and
what stands behind it says which argument the cursor is in.
-/

namespace EditorInsight

open Text

theorem topLevelCommas_join {piece : Text} {pieces : List Text} (h : ∀ t ∈ piece :: pieces, IsPiece t) :
    topLevelCommas (join [','] (piece :: pieces)) = pieces.length := by
  induction pieces generalizing piece with
  | nil => exact (h piece (by simp)).countCommas_eq_zero
  | cons next pieces ih =>
    obtain ⟨hpiece, hrest⟩ := List.forall_mem_cons.mp h
    have hcomma (t : Text) : Nesting.countCommas {} (',' :: t) = topLevelCommas t + 1 := by
      rw [Nat.add_comm]
      rfl
    rw [join, topLevelCommas, List.append_assoc, Nesting.countCommas_append, hpiece.countCommas_eq_zero,
      Nesting.foldl_feed_of_balanced hpiece.balanced, List.singleton_append, hcomma, ih hrest,
      List.length_cons, Nat.zero_add]

namespace Cursor

/-! Matching parentheses. -/

/-- The open parentheses after one more character, given with its position. -/
def matchParen (stack : List Nat) (c : Char × Nat) : List Nat :=
  if c.1 = '(' then c.2 :: stack else if c.1 = ')' then stack.tail else stack

/-- The positions of the parentheses that the text leaves open, the innermost first. A closing parenthesis with
nothing to close is passed over. -/
def openParens (t : Text) : List Nat := t.zipIdx.foldl matchParen []

theorem openParens_concat (t : Text) (c : Char) :
    openParens (t ++ [c]) = matchParen (openParens t) (c, t.length) := by
  simp [openParens, List.zipIdx_append]

theorem lt_of_mem_openParens {t : Text} {p : Nat} (h : p ∈ openParens t) : p < t.length := by
  induction t using List.reverseRecOn generalizing p with
  | nil => cases h
  | append_singleton t c ih =>
    rw [openParens_concat, matchParen] at h
    rw [List.length_append, List.length_singleton]
    split at h
    · rcases List.mem_cons.mp h with rfl | h
      · exact Nat.lt_succ_self _
      · exact Nat.lt_succ_of_lt (ih h)
    · split at h
      · exact Nat.lt_succ_of_lt (ih (List.mem_of_mem_tail h))
      · exact Nat.lt_succ_of_lt (ih h)

theorem pairwise_openParens (t : Text) : (openParens t).Pairwise (· > ·) := by
  induction t using List.reverseRecOn with
  | nil => exact .nil
  | append_singleton t c ih =>
    rw [openParens_concat, matchParen]
    split
    · exact .cons (fun q hq => lt_of_mem_openParens hq) ih
    · split
      · exact ih.tail
      · exact ih

theorem head?_openParens {t : Text} {p : Nat} (hp : p ∈ openParens t) (hmax : ∀ q ∈ openParens t, q ≤ p) :
    (openParens t)[0]? = some p := by
  have hsorted := pairwise_openParens t
  cases hopen : openParens t with
  | nil =>
    rw [hopen] at hp
    cases hp
  | cons q stack =>
    rw [hopen] at hp hmax hsorted
    have hq := hmax q List.mem_cons_self
    rcases List.mem_cons.mp hp with rfl | hp
    · rfl
    · have := List.rel_of_pairwise_cons hsorted hp
      omega

/-- The search backward, when it has already passed `depth` closing parentheses too many, stops at the open one
that has as many open ones behind it. -/
theorem splitOpen?_reverse (depth : Nat) (after t : Text) : splitOpen? depth after t.reverse =
    (openParens t)[depth]?.map fun p => (t.drop (p + 1) ++ after, (t.take p).reverse) := by
  induction t using List.reverseRecOn generalizing depth after with
  | nil => rfl
  | append_singleton t c ih =>
    -- one more character behind the text changes none of the cuts before it
    have hcut (d : Nat) : ((openParens t)[d]?.map fun p => (t.drop (p + 1) ++ c :: after, (t.take p).reverse)) =
        (openParens t)[d]?.map fun p =>
          ((t ++ [c]).drop (p + 1) ++ after, ((t ++ [c]).take p).reverse) := by
      refine Option.map_congr fun p hp => ?_
      have hlt := lt_of_mem_openParens (List.mem_of_getElem? hp)
      rw [List.drop_append_of_le_length (by omega), List.take_append_of_le_length (by omega),
        List.append_assoc, List.singleton_append]
    rw [List.reverse_append, List.reverse_singleton, List.singleton_append, openParens_concat, matchParen]
    by_cases hopen : c = '('
    · subst hopen
      cases depth with
      | zero => simp [splitOpen?]
      | succ d => rw [splitOpen?, ih, hcut, if_pos rfl, List.getElem?_cons_succ]
    · by_cases hclose : c = ')'
      · subst hclose
        rw [splitOpen?, ih, hcut, if_neg (by simp), if_pos rfl, List.getElem?_tail]
      · rw [splitOpen?, ih, hcut, if_neg hopen, if_neg hclose]
        all_goals assumption

theorem enclosingCall?_eq_none {before : Text} (h : openParens before = []) :
    enclosingCall? before = none := by
  rw [enclosingCall?, splitOpen?_reverse, h]
  rfl

theorem enclosingCall?_eq {before : Text} {p : Nat} (hp : p ∈ openParens before)
    (hmax : ∀ q ∈ openParens before, q ≤ p) : enclosingCall? before =
      (longestSuffix? isChain (trimRight (before.take p))).map (⟨·, before.drop (p + 1)⟩) := by
  rw [enclosingCall?, splitOpen?_reverse, head?_openParens hp hmax]
  simp

/-! The callee. -/

theorem isChain_of_isIdentifier {t : Text} (h : isIdentifier t = true) : isChain t = true := by
  have hword := isWord_of_isIdentifier h
  have hsplit : splitWhere (· == '.') t = [t] := splitWhere_of_not_mem (hword.not_mem (by decide))
  rw [isChain, Bool.and_eq_true, List.all_eq_true, hsplit]
  refine ⟨fun c hc => ?_, by simp [h]⟩
  rw [hword.isIdentPart c hc, Bool.or_true]

theorem exists_suffix_of_isChain {t : Text} (h : isChain t = true) : ∃ s, s <:+ t ∧ isIdentifier s = true := by
  rw [isChain, Bool.and_eq_true, List.all_eq_true, List.all_eq_true] at h
  rcases List.eq_nil_or_concat (splitWhere (· == '.') t) with hnil | ⟨init, last, hlast⟩
  · exact absurd hnil (splitWhere_ne_nil _ _)
  · rw [List.concat_eq_append] at hlast
    obtain ⟨u, hu⟩ := exists_join_append ['.'] init last
    rw [← hlast, join_splitWhere] at hu
    exact ⟨last, ⟨u, hu.symm⟩, h.2 last (by simp [hlast])⟩

theorem longestSuffix?_isChain_eq_none {t : Text} (h : ∀ s, s <:+ t → isIdentifier s = false) :
    longestSuffix? isChain t = none := by
  refine longestSuffix?_eq_none_iff.mpr fun s hs => ?_
  by_contra hchain
  obtain ⟨u, hu, hident⟩ := exists_suffix_of_isChain (by simpa using hchain)
  rw [h u (hu.trans hs)] at hident
  cases hident

theorem exists_longestSuffix?_isChain {t s : Text} (hs : s <:+ t) (h : isIdentifier s = true) :
    ∃ chain, longestSuffix? isChain t = some chain := by
  refine Option.ne_none_iff_exists'.mp fun hnone => ?_
  have hchain := longestSuffix?_eq_none_iff.mp hnone s hs
  rw [isChain_of_isIdentifier h] at hchain
  cases hchain

/-- The enclosing call belongs to the last of the parentheses that are left open. There is none if no parenthesis
is left open, or if no identifier stands before the last one; otherwise its callee is the longest chain there. If
what stands behind the parenthesis is a list of pieces, the cursor is in the last of them. -/
theorem enclosingCall?_innermost (before : Text) :
    (openParens before = [] → enclosingCall? before = none) ∧
    ∀ p ∈ openParens before, (∀ q ∈ openParens before, q ≤ p) →
      ((∀ s, s <:+ trimRight (before.take p) → isIdentifier s = false) → enclosingCall? before = none) ∧
      (∀ s, s <:+ trimRight (before.take p) → isIdentifier s = true →
        ∃ callee, enclosingCall? before = some ⟨callee, before.drop (p + 1)⟩ ∧
          callee <:+ trimRight (before.take p) ∧ isChain callee = true ∧
          ∀ u, u <:+ trimRight (before.take p) → isChain u = true → u.length ≤ callee.length) ∧
      ∀ (pieces : List Text) (n : Int), pieces ≠ [] → (∀ t ∈ pieces, IsPiece t) →
        before.drop (p + 1) = join [','] pieces →
        activeParameter (before.drop (p + 1)) n = min ((pieces.length : Int) - 1) (max 0 (n - 1)) := by
  refine ⟨enclosingCall?_eq_none, fun p hp hmax => ⟨?_, ?_, ?_⟩⟩
  · intro hnone
    rw [enclosingCall?_eq hp hmax, longestSuffix?_isChain_eq_none hnone]
    rfl
  · intro s hs hident
    obtain ⟨callee, hcallee⟩ := exists_longestSuffix?_isChain hs hident
    refine ⟨callee, ?_, longestSuffix?_eq_some_iff.mp hcallee⟩
    rw [enclosingCall?_eq hp hmax, hcallee]
    rfl
  · intro pieces n hne hpieces hjoin
    cases pieces with
    | nil => exact absurd rfl hne
    | cons piece pieces =>
      rw [hjoin, activeParameter, topLevelCommas_join hpieces, List.length_cons]
      push_cast
      rw [Int.add_sub_cancel]

theorem enclosingCall?_innermost_nested :
    let before : Text := ") x = foo.bar (1, baz(2, 3), \x7b'k': [a, b]\x7d, "
    let pieces : List Text := ["1", " baz(2, 3)", " \x7b'k': [a, b]\x7d", " "]
    openParens before = [14] ∧ before.drop 15 = join [','] pieces ∧ (∀ t ∈ pieces, IsPiece t) ∧
      enclosingCall? before = some ⟨"foo.bar", before.drop 15⟩ ∧
      (∀ u, u <:+ trimRight (before.take 14) → isChain u = true → u.length ≤ 7) ∧
      activeParameter (before.drop 15) 3 = 2 := by
  intro before pieces
  have hopen : openParens before = [14] := by decide +kernel
  have hjoin : before.drop 15 = join [','] pieces := by decide +kernel
  have hpieces : ∀ t ∈ pieces, IsPiece t := by decide +kernel
  have hcall : enclosingCall? before = some ⟨"foo.bar", before.drop 15⟩ := by decide +kernel
  obtain ⟨-, hcallee, hactive⟩ := (enclosingCall?_innermost before).2 14 (by simp [hopen]) (by simp [hopen])
  obtain ⟨callee, hsome, -, -, hlongest⟩ := hcallee "bar" (by decide +kernel) (by decide +kernel)
  obtain ⟨rfl, -⟩ := CallSite.mk.inj (Option.some.inj (hcall.symm.trans hsome))
  exact ⟨hopen, hjoin, hpieces, hcall, hlongest, hactive pieces 3 (by simp [pieces]) hpieces hjoin⟩

end Cursor
end EditorInsight
