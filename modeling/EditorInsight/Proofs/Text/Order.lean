import EditorInsight.Text.Basic
import Mathlib.Data.List.Pairwise

/-!
# The order of texts

Texts are ordered by code points. Sorting puts them in that order, without repetitions in the strict one.
-/

namespace EditorInsight.Text

theorem le_iff {a b : Text} : le a b = true ↔ a < b ∨ a = b := by
  fun_induction le a b with
  | case1 b => cases b <;> simp
  | case2 => simp
  | case3 a r s ih => simp [ih]
  | case4 a r b s hne =>
    rw [List.cons_lt_cons_iff, decide_eq_true_eq]
    simp [hne, Char.lt_def]

theorem le_total (a b : Text) : (le a b || le b a) = true := by
  fun_induction le a b with
  | case1 b => rfl
  | case2 => rfl
  | case3 a r s ih => simpa [le] using ih
  | case4 a r b s hne =>
    have hval : a.val.toNat ≠ b.val.toNat := fun h => hne (Char.ext (UInt32.toNat_inj.mp h))
    rw [le, if_neg (Ne.symm hne), Bool.or_eq_true, decide_eq_true_eq, decide_eq_true_eq, UInt32.lt_iff_toNat_lt,
      UInt32.lt_iff_toNat_lt]
    omega

theorem le_trans {a b c : Text} (hab : le a b = true) (hbc : le b c = true) : le a c = true := by
  rw [le_iff] at hab hbc ⊢
  rcases hab with hab | rfl
  · rcases hbc with hbc | rfl
    · exact .inl (List.lt_trans hab hbc)
    · exact .inl hab
  · exact hbc

theorem le_antisymm {a b : Text} (hab : le a b = true) (hba : le b a = true) : a = b := by
  rw [le_iff] at hab hba
  rcases hab with hab | rfl
  · rcases hba with hba | rfl
    · exact absurd (List.lt_trans hab hba) (List.lt_irrefl a)
    · rfl
  · rfl

variable {α : Type}

theorem pairwise_sortOn (key : α → Text) (xs : List α) :
    (sortOn key xs).Pairwise fun x y => le (key x) (key y) = true := by
  apply List.pairwise_mergeSort
  · intro x y z
    exact le_trans
  · intro x y
    exact le_total (key x) (key y)

theorem pairwise_lt_of_nodup {ts : List Text} (hle : ts.Pairwise fun t u => le t u = true) (hnodup : ts.Nodup) :
    ts.Pairwise (· < ·) :=
  (hle.and hnodup).imp fun h => (le_iff.mp h.1).resolve_right h.2

theorem nodup_of_pairwise_lt {ts : List Text} (h : ts.Pairwise (· < ·)) : ts.Nodup := by
  refine h.imp ?_
  rintro t _ hlt rfl
  exact List.lt_irrefl t hlt

theorem pairwise_lt_map_sortOn {key : α → Text} {xs : List α} (h : (xs.map key).Nodup) :
    ((sortOn key xs).map key).Pairwise (· < ·) := by
  apply pairwise_lt_of_nodup
  · exact List.pairwise_map.mpr (pairwise_sortOn key xs)
  · exact ((List.mergeSort_perm xs _).map key).nodup_iff.mpr h

theorem dedupNeighbours_sublist (ts : List Text) : (dedupNeighbours ts).Sublist ts := by
  fun_induction dedupNeighbours ts with
  | case1 => exact .slnil
  | case2 t => exact .refl _
  | case3 t r ih => exact ih.cons t
  | case4 t u r _ ih => exact ih.cons_cons t

theorem mem_dedupNeighbours {ts : List Text} {t : Text} : t ∈ dedupNeighbours ts ↔ t ∈ ts := by
  fun_induction dedupNeighbours ts with
  | case1 => rfl
  | case2 => rfl
  | case3 u r ih => simp [ih]
  | case4 u v r _ ih => rw [List.mem_cons, ih, ← List.mem_cons]

theorem nodup_dedupNeighbours {ts : List Text} (h : ts.Pairwise fun t u => le t u = true) :
    (dedupNeighbours ts).Nodup := by
  fun_induction dedupNeighbours ts with
  | case1 => exact List.nodup_nil
  | case2 t => exact List.pairwise_singleton _ t
  | case3 t r ih => exact ih h.tail
  | case4 t u r hne ih =>
    obtain ⟨hfirst, hrest⟩ := List.pairwise_cons.mp h
    refine List.nodup_cons.mpr ⟨fun hmem => ?_, ih hrest⟩
    -- all that follows `u` is at least `u`, and `t` is less
    rcases List.mem_cons.mp (mem_dedupNeighbours.mp hmem) with rfl | hmem
    · exact hne rfl
    · exact hne (le_antisymm (hfirst u List.mem_cons_self) ((List.pairwise_cons.mp hrest).1 t hmem))

theorem pairwise_lt_dedupNeighbours_sortOn (ts : List Text) :
    (dedupNeighbours (sortOn id ts)).Pairwise (· < ·) :=
  pairwise_lt_of_nodup ((pairwise_sortOn id ts).sublist (dedupNeighbours_sublist _))
    (nodup_dedupNeighbours (pairwise_sortOn id ts))

theorem mem_dedupNeighbours_sortOn {ts : List Text} {t : Text} : t ∈ dedupNeighbours (sortOn id ts) ↔ t ∈ ts := by
  rw [mem_dedupNeighbours, sortOn, List.mem_mergeSort]

end EditorInsight.Text
