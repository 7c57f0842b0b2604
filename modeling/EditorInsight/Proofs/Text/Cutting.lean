import Mathlib.Data.List.Infix
import Mathlib.Data.List.TakeWhile
import EditorInsight.Text.Basic

/-!
# Laws of cutting

A character that stands nowhere in a part of a text tells on which side of it that part lies. From this follow the
laws of cutting a text at a character and of joining the pieces, and of the longest suffix that passes a test.
-/

namespace EditorInsight.Text

theorem after?_eq_some_iff {p t r : Text} : after? p t = some r ↔ t = p ++ r := by
  constructor
  · intro h
    simp only [after?] at h
    split at h
    · rename_i hp
      obtain ⟨s, rfl⟩ := List.isPrefixOf_iff_prefix.mp hp
      simpa using h
    · simp at h
  · rintro rfl
    simp [after?]

@[simp] theorem after?_append (p r : Text) : after? p (p ++ r) = some r :=
  after?_eq_some_iff.mpr rfl

theorem exists_append_of_not_mem {p s x y : Text} {c : Char} (hp : c ∉ p) (h : p ++ s = x ++ c :: y) :
    ∃ z, x = p ++ z ∧ s = z ++ c :: y := by
  rcases List.append_eq_append_iff.mp h with ⟨z, hx, hs⟩ | ⟨q, rfl, hq⟩
  · exact ⟨z, hx, hs⟩
  · cases q with
    | nil => exact ⟨[], by simp, by simpa using hq.symm⟩
    | cons d q =>
      obtain ⟨rfl, -⟩ := List.cons.inj hq
      exact absurd (by simp) hp

theorem exists_append_of_not_mem_right {x d p z : Text} {c : Char} (hd : c ∉ d) (h : x ++ d = p ++ c :: z) :
    ∃ y, x = p ++ c :: y ∧ z = y ++ d := by
  rcases List.append_eq_append_iff.mp h with ⟨q, -, hq⟩ | ⟨q, hx, hq⟩
  · exact absurd (by simp [hq]) hd
  · cases q with
    | nil =>
      rw [List.nil_append] at hq
      exact absurd (by simp [← hq]) hd
    | cons b q =>
      obtain ⟨rfl, hz⟩ := List.cons.inj hq
      exact ⟨q, hx, hz⟩

theorem isPrefix_of_append_cons {p x y : Text} {c : Char} (hc : c ∉ p) (h : p <+: x ++ c :: y) : p <+: x := by
  rcases List.prefix_or_prefix_of_prefix h (List.prefix_append x (c :: y)) with hp | ⟨q, rfl⟩
  · exact hp
  · cases q with
    | nil => exact ⟨[], by simp⟩
    | cons d q =>
      obtain ⟨s, hs⟩ := (List.prefix_append_right_inj x).mp h
      obtain ⟨rfl, -⟩ := List.cons.inj hs
      exact absurd (by simp) hc

theorem isInfix_of_append_cons {p x y : Text} {c : Char} (hc : c ∉ p) (h : p <:+: x ++ c :: y) :
    p <:+: x ∨ p <:+: y := by
  induction x with
  | nil =>
    rcases List.infix_cons_iff.mp h with hp | hy
    · exact .inl (isPrefix_of_append_cons (x := []) hc hp).isInfix
    · exact .inr hy
  | cons a x ih =>
    rcases List.infix_cons_iff.mp h with hp | hx
    · exact .inl (isPrefix_of_append_cons (x := a :: x) hc hp).isInfix
    · exact (ih hx).imp_left fun hx => List.infix_cons hx

theorem beforeLast?_of_not_mem {t : Text} {c : Char} (h : c ∉ t) : beforeLast? c t = none := by
  induction t with
  | nil => rfl
  | cons d t ih =>
    rw [List.mem_cons, not_or] at h
    rw [beforeLast?, ih h.2]
    exact if_neg (Ne.symm h.1)

theorem beforeLast?_append_cons {y : Text} {c : Char} (h : c ∉ y) (x : Text) :
    beforeLast? c (x ++ c :: y) = some x := by
  induction x with
  | nil => simp [beforeLast?, beforeLast?_of_not_mem h]
  | cons d x ih => rw [List.cons_append, beforeLast?, ih]

/-! Pieces. -/

theorem splitWhere_append {α : Type} {p : α → Bool} {c : α} (hc : p c = true) (x y : List α) :
    splitWhere p (x ++ c :: y) = splitWhere p x ++ splitWhere p y := by
  induction x with
  | nil => simp [splitWhere, hc]
  | cons d x ih =>
    rw [List.cons_append, splitWhere, splitWhere]
    split
    · rw [ih, List.cons_append]
    · rw [ih]
      cases hx : splitWhere p x with
      | nil => exact absurd hx (splitWhere_ne_nil p x)
      | cons s ss => rfl

theorem splitWhere_of_not_mem {c : Char} {t : Text} (h : c ∉ t) : splitWhere (· == c) t = [t] := by
  induction t with
  | nil => rfl
  | cons d t ih =>
    rw [List.mem_cons, not_or] at h
    rw [splitWhere, if_neg (by simpa using Ne.symm h.1), ih h.2]

theorem splitWhere_join {c : Char} {ts : List Text} (hne : ts ≠ []) (h : ∀ t ∈ ts, c ∉ t) :
    splitWhere (· == c) (join [c] ts) = ts := by
  induction ts with
  | nil => exact absurd rfl hne
  | cons t ts ih =>
    obtain ⟨ht, hts⟩ := List.forall_mem_cons.mp h
    cases ts with
    | nil => exact splitWhere_of_not_mem ht
    | cons u ts =>
      rw [join, List.append_assoc, List.singleton_append, splitWhere_append (by simp),
        splitWhere_of_not_mem ht, ih (by simp) hts]
      rfl

theorem mem_and_eq_false_of_mem_splitWhere {p : Char → Bool} {t s : Text} (hs : s ∈ splitWhere p t) {c : Char}
    (hc : c ∈ s) : c ∈ t ∧ p c = false := by
  induction t generalizing s with
  | nil =>
    obtain rfl : s = [] := by simpa [splitWhere] using hs
    simp at hc
  | cons d t ih =>
    rw [splitWhere] at hs
    split at hs
    · rcases List.mem_cons.mp hs with rfl | hs
      · simp at hc
      · exact (ih hs hc).imp_left (List.mem_cons_of_mem d)
    · rename_i hd
      split at hs
      · rename_i hnil
        exact absurd hnil (splitWhere_ne_nil _ _)
      · rename_i u us hu
        rw [hu] at ih
        rcases List.mem_cons.mp hs with rfl | hs
        · rcases List.mem_cons.mp hc with rfl | hc
          · exact ⟨List.mem_cons_self, eq_false_of_ne_true hd⟩
          · exact (ih List.mem_cons_self hc).imp_left (List.mem_cons_of_mem d)
        · exact (ih (List.mem_cons_of_mem u hs) hc).imp_left (List.mem_cons_of_mem d)

theorem mem_of_mem_splitWhere {p : Char → Bool} {t s : Text} (hs : s ∈ splitWhere p t) {c : Char}
    (hc : c ∈ s) : c ∈ t :=
  (mem_and_eq_false_of_mem_splitWhere hs hc).1

theorem not_mem_of_mem_splitWhere {c : Char} {t s : Text} (h : s ∈ splitWhere (· == c) t) : c ∉ s := by
  intro hc
  simpa using (mem_and_eq_false_of_mem_splitWhere h hc).2

theorem join_sublist {c : Char} {ss ts : List Text} (h : ss.Sublist ts) :
    (join [c] ss).Sublist (join [c] ts) := by
  induction h with
  | slnil => exact List.Sublist.refl _
  | @cons ss ts t h ih =>
    cases ts with
    | nil =>
      obtain rfl := List.sublist_nil.mp h
      exact List.nil_sublist _
    | cons u ts => exact ih.trans (List.sublist_append_right _ _)
  | @cons_cons ss ts t h ih =>
    cases ss with
    | nil =>
      cases ts with
      | nil => exact List.Sublist.refl _
      | cons u ts =>
        rw [join, join, List.append_assoc]
        exact List.sublist_append_left _ _
    | cons s ss =>
      cases ts with
      | nil => simp at h
      | cons u ts => exact (List.Sublist.refl _).append ih

theorem exists_splitWhere_append_right {c : Char} {z : Text} (hz : c ∉ z) (x : Text) :
    ∃ init last, splitWhere (· == c) x = init ++ [last] ∧
      splitWhere (· == c) (x ++ z) = init ++ [last ++ z] := by
  induction x with
  | nil => exact ⟨[], [], rfl, splitWhere_of_not_mem hz⟩
  | cons d x ih =>
    obtain ⟨init, last, hx, hxz⟩ := ih
    rw [List.cons_append, splitWhere, splitWhere, hx, hxz]
    by_cases hd : (d == c) = true
    · exact ⟨[] :: init, last, by simp [hd], by simp [hd]⟩
    · cases init with
      | nil => exact ⟨[], d :: last, by simp [hd], by simp [hd]⟩
      | cons s ss => exact ⟨(d :: s) :: ss, last, by simp [hd], by simp [hd]⟩

/-! Suffixes. -/

theorem longestSuffix?_eq_none_iff {p : Text → Bool} {t : Text} :
    longestSuffix? p t = none ↔ ∀ s, s <:+ t → p s = false := by
  induction t with
  | nil => simp [longestSuffix?]
  | cons c t ih =>
    simp only [longestSuffix?, List.suffix_cons_iff, forall_eq_or_imp, ← ih]
    split
    · rename_i hp
      simp [hp]
    · rename_i hp
      simp [hp]

theorem longestSuffix?_eq_some_iff {p : Text → Bool} {t s : Text} : longestSuffix? p t = some s ↔
    s <:+ t ∧ p s = true ∧ ∀ u, u <:+ t → p u = true → u.length ≤ s.length := by
  have hwhole {t : Text} (hp : p t = true) : some t = some s ↔
      s <:+ t ∧ p s = true ∧ ∀ u, u <:+ t → p u = true → u.length ≤ s.length := by
    constructor
    · intro h
      obtain rfl := Option.some.inj h
      exact ⟨List.suffix_refl t, hp, fun u hu _ => hu.length_le⟩
    · rintro ⟨hs, -, hlongest⟩
      rw [hs.eq_of_length_le (hlongest t (List.suffix_refl t) hp)]
  induction t with
  | nil =>
    rw [longestSuffix?]
    split
    · rename_i hp
      exact hwhole hp
    · rename_i hp
      refine ⟨nofun, ?_⟩
      rintro ⟨hs, hps, -⟩
      rw [List.suffix_nil.mp hs] at hps
      exact absurd hps hp
  | cons c t ih =>
    rw [longestSuffix?]
    split
    · rename_i hp
      exact hwhole hp
    · rename_i hp
      -- the whole text fails the test, so only its proper suffixes count
      have hproper {u : Text} (hu : p u = true) : u <:+ c :: t ↔ u <:+ t := by
        rw [List.suffix_cons_iff, or_iff_right]
        rintro rfl
        exact hp hu
      refine ih.trans ⟨?_, ?_⟩
      · rintro ⟨hs, hps, hlongest⟩
        exact ⟨(hproper hps).mpr hs, hps, fun u hu hpu => hlongest u ((hproper hpu).mp hu) hpu⟩
      · rintro ⟨hs, hps, hlongest⟩
        exact ⟨(hproper hps).mp hs, hps, fun u hu hpu => hlongest u ((hproper hpu).mpr hu) hpu⟩

theorem longestSuffix?_append {p : Text → Bool} {u t : Text} (ht : p t = true)
    (hu : ∀ v, v ≠ [] → v <:+ u → p (v ++ t) = false) : longestSuffix? p (u ++ t) = some t := by
  refine longestSuffix?_eq_some_iff.mpr ⟨List.suffix_append u t, ht, fun s hs hps => ?_⟩
  rcases List.suffix_or_suffix_of_suffix hs (List.suffix_append u t) with hst | ⟨v, rfl⟩
  · exact hst.length_le
  · cases v with
    | nil => exact Nat.le_refl _
    | cons c v =>
      have hfails := hu (c :: v) (List.cons_ne_nil c v) (List.suffix_append_self_iff.mp hs)
      cases hps.symm.trans hfails

end EditorInsight.Text
