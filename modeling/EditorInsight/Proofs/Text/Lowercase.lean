import EditorInsight.Text.Lowercase

/-!
# Laws of lower case

A suffix that is in lower case stays when the text before it is put into lower case, and an ASCII suffix of a
lower-case form is that of a suffix of the text. The lower-case form of a name does not depend on what stands
before a slash in front of it.
-/

namespace EditorInsight.Text

def lowerAt (before : Text) (c : Char) (after : Text) : Text :=
  if c.val.toNat = 0x3A3 then
    [Char.ofNat (if leadsToCased before && !leadsToCased after then 0x3C2 else 0x3C3)]
  else lowerChar c

theorem lowerFrom_cons (before : Text) (c : Char) (r : Text) :
    lowerFrom before (c :: r) = lowerAt before c r ++ lowerFrom (c :: before) r := rfl

theorem length_lowerAt_pos (before : Text) (c : Char) (after : Text) :
    0 < (lowerAt before c after).length := by
  unfold lowerAt
  split
  · simp
  · simp only [lowerChar]
    split
    · simp
    · split
      · simp
      · split <;> simp

theorem length_le_lowerFrom (before t : Text) : t.length ≤ (lowerFrom before t).length := by
  induction t generalizing before with
  | nil => exact Nat.le_refl 0
  | cons c t ih =>
    have hhere := length_lowerAt_pos before c t
    have hrest := ih (c :: before)
    rw [lowerFrom_cons, List.length_append, List.length_cons]
    omega

theorem exists_lowerFrom_append (before x y : Text) :
    ∃ u, lowerFrom before (x ++ y) = u ++ lowerFrom (x.reverse ++ before) y := by
  induction x generalizing before with
  | nil => exact ⟨[], rfl⟩
  | cons c x ih =>
    obtain ⟨u, hu⟩ := ih (c :: before)
    refine ⟨lowerAt before c (x ++ y) ++ u, ?_⟩
    rw [List.cons_append, lowerFrom_cons, hu]
    simp

/-- A character that lower case leaves alone in one place is left alone everywhere. -/
theorem lowerAt_eq_singleton {before after : Text} {c : Char} (h : lowerAt before c after = [c])
    (before' after' : Text) : lowerAt before' c after' = [c] := by
  unfold lowerAt at h ⊢
  split at h
  · rename_i hc
    have hcode := congrArg Char.toNat (List.singleton_inj.mp h)
    rw [show c.toNat = 0x3A3 from hc] at hcode
    split at hcode <;> exact absurd hcode (by decide)
  · rename_i hc
    rw [if_neg hc, h]

theorem lowerFrom_eq_self {before t : Text} (h : lowerFrom before t = t) (before' : Text) :
    lowerFrom before' t = t := by
  induction t generalizing before before' with
  | nil => rfl
  | cons c t ih =>
    rw [lowerFrom_cons] at h
    have hhere := length_lowerAt_pos before c t
    have hrest := length_le_lowerFrom (c :: before) t
    have hlength := congrArg List.length h
    rw [List.length_append, List.length_cons] at hlength
    obtain ⟨d, hd⟩ := List.length_eq_one_iff.mp (by omega : (lowerAt before c t).length = 1)
    rw [hd, List.singleton_append] at h
    obtain ⟨rfl, htail⟩ := List.cons.inj h
    rw [lowerFrom_cons, lowerAt_eq_singleton hd, ih htail]
    rfl

theorem leadsToCased_append_slash (u v : Text) : leadsToCased (u ++ '/' :: v) = leadsToCased u := by
  have hignorable : inRanges caseIgnorableRanges '/'.val.toNat = false := by decide +kernel
  have hcased : inRanges casedRanges '/'.val.toNat = false := by decide +kernel
  unfold leadsToCased
  rw [List.dropWhile_append]
  cases hu : u.dropWhile fun c => inRanges caseIgnorableRanges c.val.toNat with
  | nil =>
    rw [if_pos List.isEmpty_nil, List.dropWhile_cons_of_neg (by rw [hignorable]; simp)]
    exact hcased
  | cons c r => rfl

theorem lowerFrom_append_slash (u v t : Text) : lowerFrom (u ++ '/' :: v) t = lowerFrom u t := by
  induction t generalizing u with
  | nil => rfl
  | cons c t ih =>
    have hhere : lowerAt (u ++ '/' :: v) c t = lowerAt u c t := by
      rw [lowerAt, leadsToCased_append_slash]
      rfl
    rw [lowerFrom_cons, lowerFrom_cons, hhere, ← List.cons_append, ih (c :: u)]

theorem suffix_lower {e t : Text} (he : lower e = e) (h : e <:+ t) : e <:+ lower t := by
  obtain ⟨x, rfl⟩ := h
  obtain ⟨u, hu⟩ := exists_lowerFrom_append [] x e
  rw [lower, hu, lowerFrom_eq_self he]
  exact List.suffix_append u e

theorem lower_suffix_lower_path (x name : Text) : lower name <:+ lower (x ++ '/' :: name) := by
  obtain ⟨u, hu⟩ := exists_lowerFrom_append [] (x ++ ['/']) name
  have hcontext : (x ++ ['/']).reverse ++ [] = [] ++ '/' :: x.reverse := by simp
  rw [hcontext, lowerFrom_append_slash, List.append_assoc, List.singleton_append] at hu
  rw [lower, lower, hu]
  exact List.suffix_append u _

theorem lowerChar_cases (c : Char) : lowerChar c = ['i', Char.ofNat 0x307] ∨ ∃ d, lowerChar c = [d] := by
  simp only [lowerChar]
  split
  · exact Or.inr ⟨_, rfl⟩
  · split
    · exact Or.inl rfl
    · split <;> exact Or.inr ⟨_, rfl⟩

/-- Only the form of two characters ends with a mark, and only that of the sigma depends on its place. So a
form that ends with an ASCII character is that character, wherever it stands. -/
theorem lowerAt_of_getLast? {before after : Text} {c d : Char}
    (h : (lowerAt before c after).getLast? = some d) (hd : d.toNat < 128) (before' after' : Text) :
    lowerAt before' c after' = [d] := by
  unfold lowerAt at h ⊢
  split at h
  · rw [List.getLast?_singleton] at h
    obtain rfl := Option.some.inj h
    split at hd <;> exact absurd hd (by decide)
  · rename_i hc
    rw [if_neg hc]
    rcases lowerChar_cases c with hform | ⟨d', hform⟩
    · rw [hform] at h
      obtain rfl := Option.some.inj h
      exact absurd hd (by decide)
    · rw [hform, List.getLast?_singleton] at h
      rw [hform, Option.some.inj h]

/-- A lower-case form in ASCII is the same in every place, and has as many characters as the text. -/
theorem lowerFrom_of_ascii {before t : Text} (h : ∀ d ∈ lowerFrom before t, d.toNat < 128) (before' : Text) :
    lowerFrom before' t = lowerFrom before t ∧ (lowerFrom before t).length = t.length := by
  induction t generalizing before before' with
  | nil => exact ⟨rfl, rfl⟩
  | cons c t ih =>
    rw [lowerFrom_cons] at h
    obtain ⟨hhere, hrest⟩ := List.forall_mem_append.mp h
    cases hlast : (lowerAt before c t).getLast? with
    | none =>
      have hpos := length_lowerAt_pos before c t
      rw [List.getLast?_eq_none_iff.mp hlast] at hpos
      cases hpos
    | some d =>
      have hform := lowerAt_of_getLast? hlast (hhere d (List.mem_of_getLast? hlast))
      obtain ⟨hsame, hlength⟩ := ih hrest (c :: before')
      rw [lowerFrom_cons, lowerFrom_cons, hform, hform, hsame]
      exact ⟨rfl, by simp [hlength]⟩

theorem exists_suffix_of_suffix_lowerFrom {e before t : Text} (hascii : ∀ d ∈ e, d.toNat < 128)
    (h : e <:+ lowerFrom before t) : ∃ x, x <:+ t ∧ x.length = e.length ∧ lower x = e := by
  induction t generalizing before with
  | nil =>
    obtain rfl : e = [] := List.suffix_nil.mp h
    exact ⟨[], List.suffix_refl _, rfl, rfl⟩
  | cons c t ih =>
    by_cases hrest : e <:+ lowerFrom (c :: before) t
    · obtain ⟨x, hx, hlength, hlower⟩ := ih hrest
      exact ⟨x, hx.trans (List.suffix_cons c t), hlength, hlower⟩
    · -- The form of the first character is not cut in two, so the suffix is that of the whole text.
      obtain ⟨u, hu⟩ := h
      rw [lowerFrom_cons] at hu
      obtain ⟨v, -, hv⟩ | ⟨v, hhere, rfl⟩ := List.append_eq_append_iff.mp hu.symm
      · exact absurd ⟨v, hv.symm⟩ hrest
      · obtain ⟨hv, htail⟩ := List.forall_mem_append.mp hascii
        cases hlast : v.getLast? with
        | none =>
          obtain rfl := List.getLast?_eq_none_iff.mp hlast
          exact absurd (List.suffix_refl _) hrest
        | some d =>
          have hend : (lowerAt before c t).getLast? = some d := by
            rw [hhere, List.getLast?_append, hlast]
            rfl
          have hform := lowerAt_of_getLast? hend (hv d (List.mem_of_getLast? hlast))
          obtain ⟨hsame, hlength⟩ := lowerFrom_of_ascii htail [c]
          obtain rfl : v = [d] := by
            rw [hform] at hhere
            rcases List.append_eq_singleton_iff.mp hhere.symm with ⟨-, hone⟩ | ⟨-, rfl⟩
            · exact hone
            · cases hlast
          refine ⟨c :: t, List.suffix_refl _, by simp [hlength], ?_⟩
          rw [lower, lowerFrom_cons, hform, hsame]

end EditorInsight.Text
