import EditorInsight.Proofs.Numeric.Clock
import Mathlib.Algebra.Order.Field.Basic
import Mathlib.Algebra.Order.Field.Power
import Mathlib.Order.WithBot
import Mathlib.Tactic.FieldSimp
import Mathlib.Tactic.Linarith
import Mathlib.Tactic.NormNum
import Mathlib.Tactic.Positivity
import Mathlib.Tactic.Ring

/-!
# Rounding is monotone

The nearest double of a larger number is not smaller. So the distance of a later reading to a fixed earlier one
is not smaller either, as long as doubles hold the whole numbers among them exactly.
-/

namespace EditorInsight

namespace Double

/-! The nearest multiple of a fixed power of two. -/

theorem divNearest_mul_right (num den : Nat) {k : Nat} (hk : 0 < k) :
    divNearest (num * k) (den * k) = divNearest num den := by
  have hdiv : num * k / (den * k) = num / den := Nat.mul_div_mul_right num den hk
  have hmod : num * k % (den * k) = num % den * k := Nat.mul_mod_mul_right k num den
  have hbelow : 2 * (num % den * k) < den * k ↔ 2 * (num % den) < den := by
    rw [← Nat.mul_assoc]
    exact Nat.mul_lt_mul_right hk
  have habove : den * k < 2 * (num % den * k) ↔ den < 2 * (num % den) := by
    rw [← Nat.mul_assoc]
    exact Nat.mul_lt_mul_right hk
  unfold divNearest
  simp only [hdiv, hmod, hbelow, habove]

theorem divNearest_le_divNearest {m n a b : Nat} (ha : 0 < a) (hb : 0 < b) (h : m * b ≤ n * a) :
    divNearest m a ≤ divNearest n b := by
  rw [← divNearest_mul_right m a hb, ← divNearest_mul_right n b ha, Nat.mul_comm b a]
  exact divNearest_mono h

/-- The multiple of `2 ^ e` nearest to `num / den`, counted in such multiples. -/
def significand (num den : Nat) (e : Int) : Nat :=
  if 0 ≤ e then divNearest num (den * Nat.pow 2 e.toNat) else divNearest (num * Nat.pow 2 (-e).toNat) den

def rounded (num den : Nat) : Rat :=
  significand num den (lastPlace num den) * (2 : Rat) ^ lastPlace num den

theorem cast_two_pow_pos (k : Nat) : (0 : Rat) < ((Nat.pow 2 k : Nat) : Rat) :=
  Nat.cast_pos.mpr (Nat.two_pow_pos k)

theorem zpow_of_nonneg {e : Int} (he : 0 ≤ e) : (2 : Rat) ^ e = ((Nat.pow 2 e.toNat : Nat) : Rat) := by
  obtain ⟨n, rfl⟩ := Int.eq_ofNat_of_zero_le he
  simp

theorem zpow_of_neg {e : Int} (he : ¬ 0 ≤ e) : (2 : Rat) ^ e = ((Nat.pow 2 (-e).toNat : Nat) : Rat)⁻¹ := by
  have hneg : (2 : Rat) ^ (-e) = ((Nat.pow 2 (-e).toNat : Nat) : Rat) := zpow_of_nonneg (by omega)
  rw [← hneg, zpow_neg, inv_inv]

theorem roundPositive_eq (negative : Bool) (num den : Nat) : roundPositive negative num den =
    if rounded num den = 0 then (if negative then negativeZero else finite 0)
    else if (Nat.pow 2 1024 : Rat) ≤ rounded num den then infinite negative
    else finite (if negative then -rounded num den else rounded num den) := by
  have hvalue : (if 0 ≤ lastPlace num den then
      ((significand num den (lastPlace num den) * Nat.pow 2 (lastPlace num den).toNat : Nat) : Rat)
      else mkRat (significand num den (lastPlace num den)) (Nat.pow 2 (-lastPlace num den).toNat)) =
      rounded num den := by
    unfold rounded
    split
    · rename_i he
      rw [zpow_of_nonneg he, Nat.cast_mul]
    · rename_i he
      rw [zpow_of_neg he, Rat.mkRat_eq_div, Int.cast_natCast, div_eq_mul_inv]
  rw [← hvalue]
  rfl

/-- Rounding to multiples of `2 ^ e` is rounding a fraction that is scaled by it. -/
theorem exists_significand (num : Nat) {den : Nat} (hden : 0 < den) (e : Int) :
    ∃ a b, 0 < b ∧ significand num den e = divNearest a b ∧ (a / b : Rat) * 2 ^ e = num / den := by
  unfold significand
  split
  · rename_i he
    refine ⟨num, den * Nat.pow 2 e.toNat, Nat.mul_pos hden (Nat.two_pow_pos _), rfl, ?_⟩
    rw [zpow_of_nonneg he, Nat.cast_mul, ← div_div, div_mul_cancel₀ _ (cast_two_pow_pos _).ne']
  · rename_i he
    refine ⟨num * Nat.pow 2 (-e).toNat, den, hden, rfl, ?_⟩
    rw [zpow_of_neg he, Nat.cast_mul, mul_div_right_comm, mul_assoc,
      mul_inv_cancel₀ (cast_two_pow_pos _).ne', mul_one]

/-! The last place of a number is that of its leading bit, or the least one. -/

theorem lt_two_zpow_iff (num : Nat) {den : Nat} (hden : 0 < den) (e : Int) :
    (if 0 ≤ e then num < den * Nat.pow 2 (e.toNat + 53)
      else num * Nat.pow 2 (-e).toNat < den * Nat.pow 2 53) ↔ (num / den : Rat) < 2 ^ (e + 53) := by
  have hpos : (0 : Rat) < den := by exact_mod_cast hden
  rw [div_lt_iff₀ hpos]
  split
  · rename_i he
    have hexp : (2 : Rat) ^ (e + 53) = ((Nat.pow 2 (e.toNat + 53) : Nat) : Rat) := by
      rw [zpow_of_nonneg (by omega)]
      congr 2
      omega
    rw [hexp, mul_comm]
    exact_mod_cast Iff.rfl
  · rename_i he
    rw [zpow_add₀ two_ne_zero, zpow_of_neg he, inv_mul_eq_div, div_mul_eq_mul_div,
      lt_div_iff₀ (cast_two_pow_pos _)]
    have hlast : (2 : Rat) ^ (53 : Int) * den = ((den * Nat.pow 2 53 : Nat) : Rat) := by
      push_cast
      ring
    rw [hlast]
    exact_mod_cast Iff.rfl

/-- The quotient of two numbers is told by their leading bits, up to a factor of two. -/
theorem between_two_zpow {num den : Nat} (hnum : num ≠ 0) (hden : den ≠ 0) :
    (2 : Rat) ^ ((num.log2 : Int) - den.log2 - 1) ≤ num / den ∧
      (num / den : Rat) < 2 ^ ((num.log2 : Int) - den.log2 + 1) := by
  have hpos : (0 : Rat) < den := by exact_mod_cast Nat.pos_of_ne_zero hden
  have hlow {n : Nat} (hn : n ≠ 0) : (2 : Rat) ^ (n.log2 : Int) ≤ n := by
    exact_mod_cast Nat.log2_self_le hn
  have hhigh (n : Nat) : (n : Rat) < 2 ^ ((n.log2 : Int) + 1) := by
    exact_mod_cast Nat.lt_log2_self (n := n)
  constructor
  · rw [le_div_iff₀ hpos]
    calc (2 : Rat) ^ ((num.log2 : Int) - den.log2 - 1) * den
        ≤ 2 ^ ((num.log2 : Int) - den.log2 - 1) * 2 ^ ((den.log2 : Int) + 1) :=
          mul_le_mul_of_nonneg_left (hhigh den).le (by positivity)
      _ = 2 ^ (num.log2 : Int) := by
          rw [← zpow_add₀ two_ne_zero]
          congr 1
          omega
      _ ≤ num := hlow hnum
  · rw [div_lt_iff₀ hpos]
    calc (num : Rat) < 2 ^ ((num.log2 : Int) + 1) := hhigh num
      _ = 2 ^ ((num.log2 : Int) - den.log2 + 1) * 2 ^ (den.log2 : Int) := by
          rw [← zpow_add₀ two_ne_zero]
          congr 1
          omega
      _ ≤ 2 ^ ((num.log2 : Int) - den.log2 + 1) * den :=
          mul_le_mul_of_nonneg_left (hlow hden) (by positivity)

theorem lastPlace_bounds {num den : Nat} (hnum : num ≠ 0) (hden : den ≠ 0) :
    -1074 ≤ lastPlace num den ∧ (num / den : Rat) < 2 ^ (lastPlace num den + 53) ∧
      (lastPlace num den = -1074 ∨ (2 : Rat) ^ (lastPlace num den + 52) ≤ num / den) := by
  obtain ⟨hlow, hhigh⟩ := between_two_zpow hnum hden
  have hsmall := lt_two_zpow_iff num (Nat.pos_of_ne_zero hden) ((num.log2 : Int) - den.log2 - 53)
  unfold lastPlace
  simp only [hsmall]
  generalize (num.log2 : Int) - den.log2 = k at hlow hhigh ⊢
  -- Without the least exponent the leading bit has exponent `e + 52`.
  obtain ⟨e, he, hbelow, habove⟩ : ∃ e,
      (if (num / den : Rat) < 2 ^ (k - 53 + 53) then k - 53 else k - 53 + 1) = e ∧
      (num / den : Rat) < 2 ^ (e + 53) ∧ (2 : Rat) ^ (e + 52) ≤ num / den := by
    refine ⟨_, rfl, ?_⟩
    split
    · rename_i hlt
      have hexp : k - 53 + 52 = k - 1 := by omega
      rw [hexp]
      exact ⟨hlt, hlow⟩
    · rename_i hge
      have hexp : k - 53 + 1 + 53 = k + 1 := by omega
      have hexp' : k - 53 + 1 + 52 = k - 53 + 53 := by omega
      rw [hexp, hexp']
      exact ⟨hhigh, not_lt.mp hge⟩
  rw [he]
  refine ⟨le_max_right _ _, ?_, ?_⟩
  · exact hbelow.trans_le (zpow_le_zpow_right₀ one_le_two (by omega))
  · rcases le_total e (-1074) with hleast | hnormal
    · exact .inl (max_eq_right hleast)
    · rw [max_eq_left hnormal]
      exact .inr habove

/-! A larger fraction is not rounded to a smaller value. -/

theorem significand_le {num den : Nat} (hden : 0 < den) {e : Int} {n : Nat}
    (h : (num / den : Rat) < n * 2 ^ e) : significand num den e ≤ n := by
  obtain ⟨a, b, hb, hsignificand, hscaled⟩ := exists_significand num hden e
  have hpow : (0 : Rat) < 2 ^ e := by positivity
  have hpos : (0 : Rat) < b := by exact_mod_cast hb
  rw [← hscaled, mul_lt_mul_iff_left₀ hpow, div_lt_iff₀ hpos] at h
  have hlt : a < n * b := by exact_mod_cast h
  have hquot : a / b < n := (Nat.div_lt_iff_lt_mul hb).mpr hlt
  have hle := divNearest_le a b
  rw [hsignificand]
  omega

theorem le_significand {num den : Nat} (hden : 0 < den) {e : Int} {n : Nat}
    (h : (n * 2 ^ e : Rat) ≤ num / den) : n ≤ significand num den e := by
  obtain ⟨a, b, hb, hsignificand, hscaled⟩ := exists_significand num hden e
  have hpow : (0 : Rat) < 2 ^ e := by positivity
  have hpos : (0 : Rat) < b := by exact_mod_cast hb
  rw [← hscaled, mul_le_mul_iff_left₀ hpow, le_div_iff₀ hpos] at h
  have hle : n * b ≤ a := by exact_mod_cast h
  rw [hsignificand]
  exact ((Nat.le_div_iff_mul_le hb).mpr hle).trans (div_le_divNearest a b)

theorem significand_mono {num den num' den' : Nat} (hden : 0 < den) (hden' : 0 < den') (e : Int)
    (h : (num / den : Rat) ≤ num' / den') : significand num den e ≤ significand num' den' e := by
  obtain ⟨a, b, hb, hsignificand, hscaled⟩ := exists_significand num hden e
  obtain ⟨a', b', hb', hsignificand', hscaled'⟩ := exists_significand num' hden' e
  have hpow : (0 : Rat) < 2 ^ e := by positivity
  have hpos : (0 : Rat) < b := by exact_mod_cast hb
  have hpos' : (0 : Rat) < b' := by exact_mod_cast hb'
  rw [← hscaled, ← hscaled', mul_le_mul_iff_left₀ hpow, div_le_div_iff₀ hpos hpos'] at h
  rw [hsignificand, hsignificand']
  exact divNearest_le_divNearest hb hb' (by exact_mod_cast h)

theorem rounded_nonneg (num den : Nat) : 0 ≤ rounded num den := by
  unfold rounded
  positivity

theorem rounded_mono {num den num' den' : Nat} (hnum : num ≠ 0) (hden : den ≠ 0) (hden' : den' ≠ 0)
    (h : (num / den : Rat) ≤ num' / den') : rounded num den ≤ rounded num' den' := by
  have hpos : (0 : Rat) < num / den := by positivity
  have hnum' : num' ≠ 0 := by
    rintro rfl
    rw [Nat.cast_zero, zero_div] at h
    exact absurd h (not_le.mpr hpos)
  obtain ⟨hleast, hbelow, habove⟩ := lastPlace_bounds hnum hden
  obtain ⟨hleast', hbelow', habove'⟩ := lastPlace_bounds hnum' hden'
  unfold rounded
  generalize lastPlace num den = e at *
  generalize lastPlace num' den' = e' at *
  have hplaces : e ≤ e' := by
    rcases habove with rfl | habove
    · exact hleast'
    · have hlt : (2 : Rat) ^ (e + 52) < 2 ^ (e' + 53) := habove.trans_lt (h.trans_lt hbelow')
      have := (zpow_lt_zpow_iff_right₀ one_lt_two).mp hlt
      omega
  rcases hplaces.lt_or_eq with hlt | rfl
  · -- The smaller value is at most the power of two that the larger one is at least.
    have hnormal : (2 : Rat) ^ (e' + 52) ≤ num' / den' := by
      rcases habove' with heq | habove'
      · omega
      · exact habove'
    have hupper : significand num den e ≤ 2 ^ 53 := by
      apply significand_le (Nat.pos_of_ne_zero hden)
      rw [zpow_add₀ two_ne_zero, mul_comm] at hbelow
      exact_mod_cast hbelow
    have hlower : 2 ^ 52 ≤ significand num' den' e' := by
      apply le_significand (Nat.pos_of_ne_zero hden')
      rw [zpow_add₀ two_ne_zero, mul_comm] at hnormal
      exact_mod_cast hnormal
    calc (significand num den e : Rat) * 2 ^ e ≤ 2 ^ 53 * 2 ^ e := by
          gcongr
          exact_mod_cast hupper
      _ = 2 ^ 52 * 2 ^ (e + 1) := by
          rw [zpow_add₀ two_ne_zero]
          ring
      _ ≤ 2 ^ 52 * 2 ^ e' := by
          gcongr
          · exact one_le_two
          · omega
      _ ≤ significand num' den' e' * 2 ^ e' := by
          gcongr
          exact_mod_cast hlower
  · have hsignificand := significand_mono (Nat.pos_of_ne_zero hden) (Nat.pos_of_ne_zero hden') e h
    gcongr

/-! The order of all doubles. -/

/-- Where a double stands between the two infinities. What is not a number stands nowhere. -/
def position? : Double → Option (WithBot (WithTop Rat))
  | nan => none
  | infinite true => some ⊥
  | infinite false => some ⊤
  | negativeZero => some ((0 : Rat) : WithTop Rat)
  | finite q => some (q : WithTop Rat)

theorem coe_coe_lt_top (q : Rat) : ((q : WithTop Rat) : WithBot (WithTop Rat)) < ⊤ :=
  WithBot.coe_lt_coe.mpr (WithTop.coe_lt_top q)

theorem ltRat_iff {x : Double} {q : Rat} :
    x.ltRat q = true ↔ ∃ a, x.position? = some a ∧ a < ((q : WithTop Rat) : WithBot (WithTop Rat)) := by
  cases x with
  | nan => simp [ltRat, position?]
  | infinite negative => cases negative <;> simp [ltRat, position?]
  | negativeZero => simp [ltRat, position?]
  | finite p => simp [ltRat, position?]

theorem gtRat_iff {x : Double} {q : Rat} :
    x.gtRat q = true ↔ ∃ a, x.position? = some a ∧ ((q : WithTop Rat) : WithBot (WithTop Rat)) < a := by
  cases x with
  | nan => simp [gtRat, position?]
  | infinite negative => cases negative <;> simp [gtRat, position?, coe_coe_lt_top]
  | negativeZero => simp [gtRat, position?]
  | finite p => simp [gtRat, position?]

theorem lt_iff {x y : Double} :
    x.lt y = true ↔ ∃ a b, x.position? = some a ∧ y.position? = some b ∧ a < b := by
  cases y with
  | nan => simp [lt, position?]
  | infinite negative =>
    cases x with
    | nan => simp [lt, position?]
    | infinite negative' => cases negative <;> cases negative' <;> simp [lt, position?]
    | negativeZero =>
      cases negative with
      | true => simp [lt, position?]
      | false => simpa [lt, position?] using coe_coe_lt_top 0
    | finite p => cases negative <;> simp [lt, position?, coe_coe_lt_top p]
  | negativeZero =>
    rw [lt, ltRat_iff]
    simp [position?]
  | finite q =>
    rw [lt, ltRat_iff]
    simp [position?]

theorem not_limit_le_zero : ¬ (Nat.pow 2 1024 : Rat) ≤ 0 := by
  generalize 1024 = k
  exact not_le.mpr (cast_two_pow_pos k)

def signedPosition (negative : Bool) (value : Rat) : WithBot (WithTop Rat) :=
  if (Nat.pow 2 1024 : Rat) ≤ value then (if negative then ⊥ else ⊤)
  else ((if negative then -value else value : Rat) : WithTop Rat)

theorem position?_roundPositive (negative : Bool) (num den : Nat) :
    (roundPositive negative num den).position? = some (signedPosition negative (rounded num den)) := by
  rw [roundPositive_eq, signedPosition]
  by_cases hzero : rounded num den = 0
  · rw [if_pos hzero, hzero, if_neg not_limit_le_zero]
    cases negative <;> simp [position?]
  · rw [if_neg hzero]
    split
    · cases negative <;> simp [position?]
    · rfl

theorem signedPosition_false_mono {v w : Rat} (h : v ≤ w) :
    signedPosition false v ≤ signedPosition false w := by
  unfold signedPosition
  by_cases hw : (Nat.pow 2 1024 : Rat) ≤ w
  · rw [if_pos hw]
    exact le_top
  · have hv : ¬ (Nat.pow 2 1024 : Rat) ≤ v := fun hv => hw (hv.trans h)
    rw [if_neg hv, if_neg hw]
    exact_mod_cast h

theorem signedPosition_true_antitone {v w : Rat} (h : v ≤ w) :
    signedPosition true w ≤ signedPosition true v := by
  unfold signedPosition
  by_cases hw : (Nat.pow 2 1024 : Rat) ≤ w
  · rw [if_pos hw]
    exact bot_le
  · have hv : ¬ (Nat.pow 2 1024 : Rat) ≤ v := fun hv => hw (hv.trans h)
    rw [if_neg hv, if_neg hw]
    exact_mod_cast neg_le_neg h

theorem signedPosition_zero (negative : Bool) :
    signedPosition negative 0 = (((0 : Rat) : WithTop Rat) : WithBot (WithTop Rat)) := by
  rw [signedPosition, if_neg not_limit_le_zero]
  cases negative <;> simp

theorem natAbs_div_den (q : Rat) : (q.num.natAbs / q.den : Rat) = |q| := by
  rw [Nat.cast_natAbs, Int.cast_abs]
  nth_rewrite 3 [← Rat.num_div_den q]
  rw [abs_div, Nat.abs_cast]

theorem rounded_zero (den : Nat) : rounded 0 den = 0 := by
  simp [rounded, significand, divNearest]

theorem position?_ofRat (q : Rat) : (ofRat q).position? =
    some (signedPosition (decide (q < 0)) (rounded q.num.natAbs q.den)) := by
  by_cases hq : q = 0
  · rw [hq, Rat.num_zero, Int.natAbs_zero, rounded_zero, signedPosition_zero]
    rfl
  · rw [ofRat, if_neg hq, position?_roundPositive]

theorem rounded_abs_mono {p q : Rat} (h : |p| ≤ |q|) :
    rounded p.num.natAbs p.den ≤ rounded q.num.natAbs q.den := by
  by_cases hp : p = 0
  · rw [hp, Rat.num_zero, Int.natAbs_zero, rounded_zero]
    exact rounded_nonneg _ _
  · rw [← natAbs_div_den, ← natAbs_div_den] at h
    exact rounded_mono (by simpa using hp) p.den_ne_zero q.den_ne_zero h

theorem ofRat_mono {p q : Rat} (h : p ≤ q) :
    ∃ a b, (ofRat p).position? = some a ∧ (ofRat q).position? = some b ∧ a ≤ b := by
  refine ⟨_, _, position?_ofRat p, position?_ofRat q, ?_⟩
  rcases lt_or_ge p 0 with hp | hp
  · rw [decide_eq_true hp]
    rcases lt_or_ge q 0 with hq | hq
    · rw [decide_eq_true hq]
      apply signedPosition_true_antitone
      apply rounded_abs_mono
      rw [abs_of_neg hp, abs_of_neg hq]
      exact neg_le_neg h
    · -- Zero is between the two.
      rw [decide_eq_false (not_lt.mpr hq)]
      calc _ ≤ signedPosition true 0 := signedPosition_true_antitone (rounded_nonneg _ _)
        _ = signedPosition false 0 := by rw [signedPosition_zero, signedPosition_zero]
        _ ≤ _ := signedPosition_false_mono (rounded_nonneg _ _)
  · have hq : 0 ≤ q := hp.trans h
    rw [decide_eq_false (not_lt.mpr hp), decide_eq_false (not_lt.mpr hq)]
    apply signedPosition_false_mono
    apply rounded_abs_mono
    rw [abs_of_nonneg hp, abs_of_nonneg hq]
    exact h

/-! Whole numbers with at most 53 bits are doubles. -/

theorem nearestWhole_eq {n : Nat} (h : n ≤ 2 ^ 53) : nearestWhole n = n := by
  rcases h.lt_or_eq with hlt | rfl
  · have hlog : n.log2 - 52 = 0 := by
      by_cases hn : n = 0
      · simp [hn]
      · have := (Nat.log2_lt hn).mpr hlt
        omega
    rw [nearestWhole, hlog, Nat.pow_zero, divNearest_one, Nat.mul_one]
  · decide +kernel

theorem not_limit_le {n : Nat} (h : n ≤ 2 ^ 53) : ¬ Nat.pow 2 1024 ≤ n := by
  have hk : 53 < 1024 := by decide
  generalize 1024 = k at hk ⊢
  have hlt : 2 ^ 53 < Nat.pow 2 k := Nat.pow_lt_pow_right (by decide) hk
  exact not_le.mpr (h.trans_lt hlt)

theorem rounded_one {n : Nat} (h : n ≤ 2 ^ 53) : rounded n 1 = n := by
  by_cases hn : n = 0
  · rw [hn, rounded_zero, Nat.cast_zero]
  · have hposition := position?_roundPositive false n 1
    rw [roundPositive_one hn, nearestWhole_eq h, if_neg (not_limit_le h), signedPosition] at hposition
    split at hposition
    · simp [position?] at hposition
    · exact (WithTop.coe_injective (WithBot.coe_injective (Option.some.inj hposition))).symm

theorem position?_ofRat_intCast {n : Int} (h : n.natAbs ≤ 2 ^ 53) :
    (ofRat n).position? = some (((n : Rat) : WithTop Rat) : WithBot (WithTop Rat)) := by
  have hlimit : ¬ (Nat.pow 2 1024 : Rat) ≤ (n.natAbs : Rat) := by
    rw [Nat.cast_le]
    exact not_limit_le h
  have hsign : (if decide ((n : Rat) < 0) = true then -(n.natAbs : Rat) else n.natAbs) = n := by
    rw [Nat.cast_natAbs, Int.cast_abs]
    split
    · rename_i hn
      rw [abs_of_neg (of_decide_eq_true hn), neg_neg]
    · rename_i hn
      exact abs_of_nonneg (not_lt.mp (mt decide_eq_true hn))
  rw [position?_ofRat, Rat.num_intCast, Rat.den_intCast, rounded_one h, signedPosition, if_neg hlimit, hsign]

/-! A difference grows with what is subtracted from. -/

theorem position?_cases {x : Double} {a : WithBot (WithTop Rat)} (h : x.position? = some a) :
    (x = infinite true ∧ a = ⊥) ∨ (x = infinite false ∧ a = ⊤) ∨
      ∃ p : Rat, x.toRat? = some p ∧ a = (p : WithTop Rat) := by
  cases x with
  | nan => cases h
  | infinite negative =>
    cases negative with
    | true => exact .inl ⟨rfl, (Option.some.inj h).symm⟩
    | false => exact .inr (.inl ⟨rfl, (Option.some.inj h).symm⟩)
  | negativeZero => exact .inr (.inr ⟨0, rfl, (Option.some.inj h).symm⟩)
  | finite p => exact .inr (.inr ⟨p, rfl, (Option.some.inj h).symm⟩)

theorem position?_add {x y : Double} {p q : Rat} (hx : x.toRat? = some p) (hy : y.toRat? = some q) :
    (x.add y).position? = (ofRat (p + q)).position? := by
  cases x with
  | nan => cases hx
  | infinite negative => cases hx
  | negativeZero =>
    obtain rfl := Option.some.inj hx
    cases y with
    | nan => cases hy
    | infinite negative => cases hy
    | negativeZero =>
      -- Only here the sum is not rounded: it is the other zero.
      obtain rfl := Option.some.inj hy
      rw [add_zero]
      rfl
    | finite q' =>
      obtain rfl := Option.some.inj hy
      rfl
  | finite p' =>
    obtain rfl := Option.some.inj hx
    cases y with
    | nan => cases hy
    | infinite negative => cases hy
    | negativeZero =>
      obtain rfl := Option.some.inj hy
      rfl
    | finite q' =>
      obtain rfl := Option.some.inj hy
      rfl

theorem toRat?_neg {y : Double} {q : Rat} (hy : y.toRat? = some q) : y.neg.toRat? = some (-q) := by
  cases y with
  | nan => cases hy
  | infinite negative => cases hy
  | negativeZero =>
    obtain rfl := Option.some.inj hy
    rw [neg_zero]
    rfl
  | finite q' =>
    obtain rfl := Option.some.inj hy
    by_cases hq : q' = 0 <;> simp [neg, toRat?, hq]

theorem position?_sub {x y : Double} {p q : Rat} (hx : x.toRat? = some p) (hy : y.toRat? = some q) :
    (x.sub y).position? = (ofRat (p - q)).position? := by
  rw [sub, position?_add hx (toRat?_neg hy), sub_eq_add_neg]

theorem infinite_sub {y : Double} {q : Rat} (negative : Bool) (hy : y.toRat? = some q) :
    (infinite negative).sub y = infinite negative := by
  cases y with
  | nan => cases hy
  | infinite negative => cases hy
  | negativeZero => rfl
  | finite q' => by_cases hq : q' = 0 <;> simp [sub, neg, add, hq]

theorem sub_infinite {x : Double} {p : Rat} (negative : Bool) (hx : x.toRat? = some p) :
    x.sub (infinite negative) = infinite (!negative) := by
  cases x with
  | nan => cases hx
  | infinite negative => cases hx
  | negativeZero => rfl
  | finite p' => rfl

/-- A difference is at the very top, or above that of a smaller number. -/
theorem sub_mono {x x' y : Double} {a a' b : WithBot (WithTop Rat)} (hx : x.position? = some a)
    (hx' : x'.position? = some a') (h : a ≤ a') (hb : (x'.sub y).position? = some b) :
    b = ⊤ ∨ ∃ c, (x.sub y).position? = some c ∧ c ≤ b := by
  have hbottom (z : Double) (hz : z = infinite true) :
      ∃ c, z.position? = some c ∧ c ≤ b := ⟨⊥, by rw [hz]; rfl, bot_le⟩
  rcases position?_cases hx' with ⟨rfl, rfl⟩ | ⟨rfl, rfl⟩ | ⟨p', hp', rfl⟩
  · -- Nothing is below the least position.
    obtain rfl : a = ⊥ := le_bot_iff.mp h
    have hsame : x = infinite true := by
      rcases position?_cases hx with ⟨hx, -⟩ | ⟨-, hbot⟩ | ⟨p, -, hbot⟩
      · exact hx
      · cases hbot
      · cases hbot
    rw [hsame]
    exact .inr ⟨b, hb, le_refl b⟩
  · left
    cases y with
    | nan => cases hb
    | infinite negative =>
      cases negative with
      | true => exact (Option.some.inj hb).symm
      | false => cases hb
    | negativeZero =>
      rw [infinite_sub false rfl] at hb
      exact (Option.some.inj hb).symm
    | finite q =>
      rw [infinite_sub false rfl] at hb
      exact (Option.some.inj hb).symm
  · have htop : a ≠ ⊤ := (h.trans_lt (coe_coe_lt_top p')).ne
    cases hy : y.toRat? with
    | some q =>
      right
      rcases position?_cases hx with ⟨rfl, -⟩ | ⟨-, rfl⟩ | ⟨p, hp, rfl⟩
      · exact hbottom _ (infinite_sub true hy)
      · exact absurd rfl htop
      · have hle : p ≤ p' := WithTop.coe_le_coe.mp (WithBot.coe_le_coe.mp h)
        obtain ⟨c, c', hc, hc', hcc'⟩ := ofRat_mono (sub_le_sub_right hle q)
        rw [position?_sub hp' hy, hc'] at hb
        obtain rfl := Option.some.inj hb
        exact ⟨c, (position?_sub hp hy).trans hc, hcc'⟩
    | none =>
      cases y with
      | negativeZero => cases hy
      | finite q => cases hy
      | nan => cases x' <;> cases hb
      | infinite negative =>
        rw [sub_infinite negative hp'] at hb
        cases negative with
        | true => exact .inl (Option.some.inj hb).symm
        | false =>
          right
          rcases position?_cases hx with ⟨rfl, -⟩ | ⟨-, rfl⟩ | ⟨p, hp, rfl⟩
          · exact hbottom _ rfl
          · exact absurd rfl htop
          · exact hbottom _ (sub_infinite false hp)

end Double

namespace Quantity

def position? : Quantity → Option (WithBot (WithTop Rat))
  | whole n => some ((n : Rat) : WithTop Rat)
  | fractional x => x.position?

theorem lt_iff {p q : Quantity} :
    p.lt q = true ↔ ∃ a b, p.position? = some a ∧ q.position? = some b ∧ a < b := by
  cases p with
  | whole m =>
    cases q with
    | whole n => simp [lt, position?]
    | fractional y =>
      rw [lt, Double.gtRat_iff]
      simp [position?]
  | fractional x =>
    cases q with
    | whole n =>
      rw [lt, Double.ltRat_iff]
      simp [position?]
    | fractional y => exact Double.lt_iff

def le (p q : Quantity) : Bool :=
  p ≠ fractional .nan && q ≠ fractional .nan && !q.lt p

theorem exists_position? {p : Quantity} (h : p ≠ fractional .nan) : ∃ a, p.position? = some a := by
  cases p with
  | whole n => exact ⟨_, rfl⟩
  | fractional x =>
    cases x with
    | nan => exact absurd rfl h
    | infinite negative => cases negative <;> exact ⟨_, rfl⟩
    | negativeZero => exact ⟨_, rfl⟩
    | finite q => exact ⟨_, rfl⟩

theorem exists_of_le {p q : Quantity} (h : p.le q = true) :
    ∃ a b, p.position? = some a ∧ q.position? = some b ∧ a ≤ b := by
  simp only [le, Bool.and_eq_true, decide_eq_true_eq, Bool.not_eq_true'] at h
  obtain ⟨⟨hp, hq⟩, hlt⟩ := h
  obtain ⟨a, ha⟩ := exists_position? hp
  obtain ⟨b, hb⟩ := exists_position? hq
  refine ⟨a, b, ha, hb, ?_⟩
  by_contra hle
  have hgt : q.lt p = true := lt_iff.mpr ⟨b, a, hb, ha, not_le.mp hle⟩
  rw [hgt] at hlt
  cases hlt

def isWhole : Quantity → Bool
  | whole _ => true
  | fractional _ => false

/-- Whether a whole number is so small that it is a double, and so is its distance to any other such number. -/
def isSmall : Quantity → Bool
  | whole n => n.natAbs ≤ 2 ^ 52
  | fractional _ => true

/-- The double that takes part in arithmetic with fractions. -/
def asDouble : Quantity → Double
  | whole n => .ofInt n
  | fractional x => x

theorem position?_asDouble {p : Quantity} (h : p.isSmall = true) : p.asDouble.position? = p.position? := by
  cases p with
  | whole n =>
    have hn : n.natAbs ≤ 2 ^ 52 := of_decide_eq_true h
    exact Double.position?_ofRat_intCast (hn.trans (by decide))
  | fractional x => rfl

theorem toRat?_asDouble {n : Int} (h : (whole n).isSmall = true) :
    (whole n).asDouble.toRat? = some (n : Rat) := by
  rcases Double.position?_cases (position?_asDouble h) with ⟨-, hbot⟩ | ⟨-, htop⟩ | ⟨p, hp, hposition⟩
  · cases hbot
  · cases htop
  · rw [hp, ← WithTop.coe_injective (WithBot.coe_injective hposition)]

theorem toDouble_eq {p : Quantity} (h : p.isSmall = true) : p.toDouble = .ok p.asDouble := by
  cases p with
  | whole n =>
    have hposition := position?_asDouble h
    unfold asDouble at hposition ⊢
    unfold toDouble
    dsimp only at hposition ⊢
    cases hn : Double.ofInt n with
    | infinite negative =>
      rw [hn] at hposition
      cases negative <;> cases hposition
    | nan => rfl
    | negativeZero => rfl
    | finite q => rfl
  | fractional x => rfl

/-- Among small quantities it makes no difference whether a distance is computed with doubles. -/
theorem exists_sub_of_isSmall {p q : Quantity} (hp : p.isSmall = true) (hq : q.isSmall = true) :
    ∃ d, p.sub q = .ok d ∧ d.position? = (p.asDouble.sub q.asDouble).position? := by
  have hfractional (h : p.sub q = do return fractional ((← p.toDouble).sub (← q.toDouble))) :
      ∃ d, p.sub q = .ok d ∧ d.position? = (p.asDouble.sub q.asDouble).position? := by
    rw [toDouble_eq hp, toDouble_eq hq] at h
    exact ⟨_, h, rfl⟩
  cases p with
  | fractional x => exact hfractional rfl
  | whole m =>
    cases q with
    | fractional y => exact hfractional rfl
    | whole n =>
      have hdistance : (m - n).natAbs ≤ 2 ^ 53 := by
        have hm : m.natAbs ≤ 2 ^ 52 := of_decide_eq_true hp
        have hn : n.natAbs ≤ 2 ^ 52 := of_decide_eq_true hq
        omega
      refine ⟨whole (m - n), rfl, ?_⟩
      rw [Double.position?_sub (toRat?_asDouble hp) (toRat?_asDouble hq), ← Int.cast_sub,
        Double.position?_ofRat_intCast hdistance]
      rfl

/-- Whether distances between these quantities keep their order: all are whole, or the whole ones are small. -/
def areCommensurable (l : List Quantity) : Bool :=
  l.all isWhole || l.all isSmall

theorem sub_mono {before r now age : Quantity} {c : WithBot (WithTop Rat)}
    (hreadings : areCommensurable [before, r, now] = true) (h : r.le now = true)
    (hage : now.sub before = .ok age) (hc : age.position? = some c) :
    c = ⊤ ∨ ∃ age' c', r.sub before = .ok age' ∧ age'.position? = some c' ∧ c' ≤ c := by
  obtain ⟨a, a', ha, ha', hle⟩ := exists_of_le h
  simp only [areCommensurable, List.all_cons, List.all_nil, Bool.and_true, Bool.or_eq_true, Bool.and_eq_true]
    at hreadings
  rcases hreadings with ⟨hbefore, hr, hnow⟩ | ⟨hbefore, hr, hnow⟩
  · right
    cases before with
    | fractional x => cases hbefore
    | whole b =>
      cases r with
      | fractional x => cases hr
      | whole m =>
        cases now with
        | fractional x => cases hnow
        | whole n =>
          obtain rfl := Except.ok.inj hage
          obtain rfl := Option.some.inj hc
          obtain rfl := Option.some.inj ha
          obtain rfl := Option.some.inj ha'
          refine ⟨whole (m - b), _, rfl, rfl, ?_⟩
          have hmn : m ≤ n := by exact_mod_cast hle
          exact_mod_cast Int.sub_le_sub_right hmn b
  · obtain ⟨d, hd, hposition⟩ := exists_sub_of_isSmall hnow hbefore
    obtain ⟨d', hd', hposition'⟩ := exists_sub_of_isSmall hr hbefore
    obtain rfl := Except.ok.inj (hage.symm.trans hd)
    rcases Double.sub_mono ((position?_asDouble hr).trans ha) ((position?_asDouble hnow).trans ha') hle
      (hposition.symm.trans hc) with htop | ⟨c', hc', hle'⟩
    · exact .inl htop
    · exact .inr ⟨d', c', hd', hposition'.trans hc', hle'⟩

end Quantity
end EditorInsight
