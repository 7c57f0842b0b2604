import EditorInsight.Numeric.Quantity
import Mathlib.Algebra.Order.Ring.Rat
import Mathlib.Data.Nat.Cast.Order.Ring

/-!
# Clocks that only move forward

A reading can be subtracted from any later one. Whole readings of any size are subtracted exactly; once a
clock has become fractional, every reading before it was small enough to have a nearest double, since
rounding is monotone.
-/

namespace EditorInsight

namespace Double

/-! Rounding to a multiple of a power of two. -/

theorem div_le_divNearest (num den : Nat) : num / den ≤ divNearest num den := by
  unfold divNearest
  grind

theorem divNearest_le (num den : Nat) : divNearest num den ≤ num / den + 1 := by
  unfold divNearest
  grind

theorem divNearest_mono {m n den : Nat} (h : m ≤ n) : divNearest m den ≤ divNearest n den := by
  rcases (Nat.div_le_div_right (c := den) h).lt_or_eq with hlt | heq
  · have hm := divNearest_le m den
    have hn := div_le_divNearest n den
    omega
  · -- With equal quotients the remainders decide.
    have hmod : m % den ≤ n % den := by
      have hm := Nat.div_add_mod m den
      have hn := Nat.div_add_mod n den
      rw [heq] at hm
      omega
    unfold divNearest
    grind

def nearestWhole (n : Nat) : Nat :=
  divNearest n (2 ^ (n.log2 - 52)) * 2 ^ (n.log2 - 52)

theorem le_nearestWhole {n : Nat} (hn : n ≠ 0) : 2 ^ n.log2 ≤ nearestWhole n := by
  have hfloor : 2 ^ (n.log2 - (n.log2 - 52)) ≤ n / 2 ^ (n.log2 - 52) := by
    rw [Nat.le_div_iff_mul_le (Nat.two_pow_pos _), ← Nat.pow_add, Nat.sub_add_cancel (Nat.sub_le _ _)]
    exact Nat.log2_self_le hn
  calc 2 ^ n.log2 = 2 ^ (n.log2 - (n.log2 - 52)) * 2 ^ (n.log2 - 52) := by
        rw [← Nat.pow_add, Nat.sub_add_cancel (Nat.sub_le _ _)]
    _ ≤ nearestWhole n := Nat.mul_le_mul_right _ (hfloor.trans (div_le_divNearest _ _))

theorem nearestWhole_le {n : Nat} : nearestWhole n ≤ 2 ^ (n.log2 + 1) := by
  have hfloor : n / 2 ^ (n.log2 - 52) < 2 ^ (n.log2 + 1 - (n.log2 - 52)) := by
    rw [Nat.div_lt_iff_lt_mul (Nat.two_pow_pos _), ← Nat.pow_add, Nat.sub_add_cancel (by omega)]
    exact Nat.lt_log2_self
  calc nearestWhole n ≤ 2 ^ (n.log2 + 1 - (n.log2 - 52)) * 2 ^ (n.log2 - 52) :=
        Nat.mul_le_mul_right _ ((divNearest_le _ _).trans hfloor)
    _ = 2 ^ (n.log2 + 1) := by rw [← Nat.pow_add, Nat.sub_add_cancel (by omega)]

theorem nearestWhole_mono {m n : Nat} (hm : m ≠ 0) (h : m ≤ n) : nearestWhole m ≤ nearestWhole n := by
  have hn : n ≠ 0 := by omega
  have hlog : m.log2 ≤ n.log2 := (Nat.le_log2 hn).mpr ((Nat.log2_self_le hm).trans h)
  rcases hlog.lt_or_eq with hlt | heq
  · calc nearestWhole m ≤ 2 ^ (m.log2 + 1) := nearestWhole_le
      _ ≤ 2 ^ n.log2 := Nat.pow_le_pow_right (by decide) hlt
      _ ≤ nearestWhole n := le_nearestWhole hn
  · unfold nearestWhole
    rw [heq]
    exact Nat.mul_le_mul_right _ (divNearest_mono h)

/-! The nearest double of a whole number. -/

theorem lastPlace_one {n : Nat} (hn : n ≠ 0) : lastPlace n 1 = (n.log2 : Int) - 52 := by
  have hlow := Nat.log2_self_le hn
  have hone : Nat.log2 1 = 0 := by decide
  have hsmall : ¬ (if 0 ≤ (n.log2 : Int) - 53 then n < 1 * Nat.pow 2 (((n.log2 : Int) - 53).toNat + 53)
      else n * Nat.pow 2 (-((n.log2 : Int) - 53)).toNat < 1 * Nat.pow 2 53) := by
    split
    · have hexp : ((n.log2 : Int) - 53).toNat + 53 = n.log2 := by omega
      rw [hexp, Nat.one_mul, Nat.not_lt]
      exact hlow
    · rw [Nat.one_mul, Nat.not_lt]
      calc Nat.pow 2 53 = 2 ^ n.log2 * 2 ^ (-((n.log2 : Int) - 53)).toNat := by
            rw [← Nat.pow_add]
            congr 1
            omega
        _ ≤ _ := Nat.mul_le_mul_right _ hlow
  unfold lastPlace
  simp only [hone, Int.natCast_zero, Int.sub_zero]
  rw [if_neg hsmall]
  omega

theorem divNearest_one (n : Nat) : divNearest n 1 = n := by
  simp [divNearest, Nat.mod_one]

/-- A whole number is beyond all doubles exactly if its nearest multiple is. -/
theorem roundPositive_one {n : Nat} (hn : n ≠ 0) : roundPositive false n 1 =
    if Nat.pow 2 1024 ≤ nearestWhole n then infinite false else finite (nearestWhole n : Rat) := by
  have hpos : 0 < nearestWhole n := (Nat.two_pow_pos _).trans_le (le_nearestWhole hn)
  have hvalue (x : Rat) (hx : x = nearestWhole n) :
      (if x = 0 then (if false = true then negativeZero else finite 0)
        else if (Nat.pow 2 1024 : Rat) ≤ x then infinite false
        else finite (if false = true then -x else x)) =
      if Nat.pow 2 1024 ≤ nearestWhole n then infinite false else finite (nearestWhole n : Rat) := by
    have hcast (k : Nat) : (k : Rat) ≤ (nearestWhole n : Rat) ↔ k ≤ nearestWhole n := Nat.cast_le
    have hne : (nearestWhole n : Rat) ≠ 0 := by exact_mod_cast hpos.ne'
    rw [hx, if_neg hne, if_neg Bool.false_ne_true]
    exact if_congr (hcast _) rfl rfl
  unfold roundPositive
  simp only [lastPlace_one hn]
  apply hvalue
  split
  · rename_i hplace
    have hexp : ((n.log2 : Int) - 52).toNat = n.log2 - 52 := by omega
    rw [hexp, Nat.one_mul]
    rfl
  · rename_i hplace
    have hexp : n.log2 - 52 = 0 := by omega
    have hscale := Rat.mkRat_mul_right (n := n) (d := 1)
      (Nat.pow_pos (n := (-((n.log2 : Int) - 52)).toNat) (Nat.zero_lt_two)).ne'
    rw [divNearest_one, nearestWhole, hexp, Nat.pow_zero, divNearest_one, Nat.mul_one]
    rw [Nat.one_mul] at hscale
    rw [Int.natCast_mul]
    exact hscale.trans (Rat.mkRat_one _)

theorem ofInt_natCast (n : Nat) : ofInt (n : Int) =
    if n = 0 then finite 0 else roundPositive false n 1 := by
  have hsign : ¬ ((n : Int) : Rat) < 0 := by
    rw [Int.cast_natCast, not_lt]
    exact Nat.cast_nonneg n
  have hzero : ((n : Int) : Rat) = 0 ↔ n = 0 := by
    rw [Int.cast_natCast, Nat.cast_eq_zero]
  unfold ofInt ofRat
  rw [decide_eq_false hsign]
  simp only [hzero, Rat.num_intCast, Rat.den_intCast, Int.natAbs_natCast]

theorem ofInt_ne_infinite_of_le {m n : Int} (hm : 0 ≤ m) (h : m ≤ n)
    (hn : ∀ negative, ofInt n ≠ infinite negative) (negative : Bool) : ofInt m ≠ infinite negative := by
  obtain ⟨m, rfl⟩ := Int.eq_ofNat_of_zero_le hm
  obtain ⟨n, rfl⟩ := Int.eq_ofNat_of_zero_le (hm.trans h)
  rw [ofInt_natCast]
  split
  · intro heq
    cases heq
  · rename_i hzero
    have hle : m ≤ n := Int.ofNat_le.mp h
    have hbelow := hn false
    rw [ofInt_natCast, if_neg (by omega), roundPositive_one (by omega)] at hbelow
    have hlimit : ¬ Nat.pow 2 1024 ≤ nearestWhole n := fun hover => hbelow (if_pos hover)
    have hmono := nearestWhole_mono hzero hle
    rw [roundPositive_one hzero, if_neg fun hover => hlimit (hover.trans hmono)]
    intro heq
    cases heq

end Double

namespace Quantity

/-- A quantity that a clock moves by: a whole number moves it forward. -/
def IsForward : Quantity → Prop
  | whole n => 0 ≤ n
  | fractional _ => True

instance : DecidablePred IsForward
  | whole n => inferInstanceAs (Decidable (0 ≤ n))
  | fractional _ => instDecidableTrue

/-- A clock that showed the second reading can show the first one later. -/
def Reached : Quantity → Quantity → Prop
  | whole m, whole n => 0 ≤ n ∧ n ≤ m
  | whole _, fractional _ => False
  | fractional _, whole n => ∃ x, (whole n).toDouble = .ok x
  | fractional _, fractional _ => True

theorem toDouble_of_le {m n : Int} {x : Double} (hm : 0 ≤ m) (h : m ≤ n) (hn : (whole n).toDouble = .ok x) :
    ∃ y, (whole m).toDouble = .ok y := by
  have hfinite (negative : Bool) : Double.ofInt n ≠ .infinite negative := by
    intro heq
    rw [toDouble, heq] at hn
    cases hn
  have hm := Double.ofInt_ne_infinite_of_le hm h hfinite
  rw [toDouble]
  split
  · rename_i heq
    exact absurd heq (hm _)
  · exact ⟨_, rfl⟩

theorem IsForward.reached {q : Quantity} (h : q.IsForward) : q.Reached q := by
  cases q with
  | whole n => exact ⟨h, le_refl n⟩
  | fractional x => trivial

theorem Reached.exists_sub {now before : Quantity} (h : now.Reached before) :
    ∃ gap, now.sub before = .ok gap := by
  cases now with
  | whole m =>
    cases before with
    | whole n => exact ⟨_, rfl⟩
    | fractional y => exact h.elim
  | fractional x =>
    cases before with
    | whole n =>
      obtain ⟨y, hy⟩ := h
      refine ⟨fractional (x.sub y), ?_⟩
      rw [sub, hy]
      · rfl
      · simp
    | fractional y => exact ⟨_, rfl⟩

/-- A sum with a fraction is a fraction, and the whole number in it has a nearest double. -/
theorem add_eq_fractional {p q r : Quantity} (h : p.add q = .ok r) :
    (∃ m n, p = whole m ∧ q = whole n ∧ r = whole (m + n)) ∨
    ((∃ x, p.toDouble = .ok x) ∧ ∃ z, r = fractional z) := by
  cases p with
  | whole m =>
    cases q with
    | whole n => exact .inl ⟨m, n, rfl, rfl, (Except.ok.inj h).symm⟩
    | fractional y =>
      cases hx : (whole m).toDouble with
      | error f =>
        rw [add, hx] at h
        · cases h
        · simp
      | ok x =>
        rw [add, hx] at h
        · exact .inr ⟨⟨x, rfl⟩, _, (Except.ok.inj h).symm⟩
        · simp
  | fractional x =>
    cases hy : q.toDouble with
    | error f =>
      rw [add, hy] at h
      · cases h
      · simp
    | ok y =>
      rw [add, hy] at h
      · exact .inr ⟨⟨x, rfl⟩, _, (Except.ok.inj h).symm⟩
      · simp

theorem IsForward.add {now step later : Quantity} (hnow : now.IsForward) (hstep : step.IsForward)
    (h : now.add step = .ok later) : later.IsForward := by
  rcases add_eq_fractional h with ⟨m, n, rfl, rfl, rfl⟩ | ⟨-, z, rfl⟩
  · exact Int.add_nonneg hnow hstep
  · trivial

theorem Reached.add {now step later before : Quantity} (hnow : now.Reached before)
    (hstep : step.IsForward) (h : now.add step = .ok later) : later.Reached before := by
  rcases add_eq_fractional h with ⟨m, n, rfl, rfl, rfl⟩ | ⟨⟨x, hx⟩, z, rfl⟩
  · cases before with
    | whole k => exact ⟨hnow.1, hnow.2.trans (Int.le_add_of_nonneg_right hstep)⟩
    | fractional y => exact hnow
  · cases before with
    | fractional y => trivial
    | whole k =>
      cases now with
      | whole m => exact toDouble_of_le hnow.1 hnow.2 hx
      | fractional y => exact hnow

end Quantity
end EditorInsight
