import BasRelief.Proofs.Decimal.FixedText
import BasRelief.Proofs.Decimal.NearestWhole
import BasRelief.Scalar
import Mathlib.Algebra.Group.Int.Even
import Mathlib.Algebra.Order.Field.Basic
import Mathlib.Tactic.FieldSimp

/-!
# Exact numbers in fixed-point text

A fraction is rounded to the nearest whole number by rounding its size and keeping its sign. A
fraction with few enough decimal places is written exactly, so what is read back is the fraction.
-/

namespace BasRelief.Exact
open Decimal

/-- The whole number nearest to a fraction; of two that are equally near, the one farther from
zero. -/
structure NearestAway (v : Rat) (k : Int) : Prop where
  near : |v - k| ≤ 1 / 2
  tie : |v - k| = 1 / 2 → |v| < |(k : Rat)|

/-- The whole number nearest to a fraction; of two that are equally near, the even one. -/
structure NearestEven (v : Rat) (k : Int) : Prop where
  near : |v - k| ≤ 1 / 2
  tie : |v - k| = 1 / 2 → Even k

/-! ### Sign and size -/

/-- The whole number with the given size and the sign of a fraction. -/
def signed (v : Rat) (size : Nat) : Int := if v < 0 then -size else size

theorem abs_eq_div (v : Rat) : |v| = v.num.natAbs / v.den := by
  have hden : (0 : Rat) < v.den := Nat.cast_pos.mpr v.den_pos
  conv_lhs => rw [← Rat.num_div_den v]
  rw [abs_div, abs_of_pos hden, Nat.cast_natAbs, Int.cast_abs]

theorem abs_sub_signed (v : Rat) (size : Nat) : |v - signed v size| = |(|v| - size : Rat)| := by
  unfold signed
  split
  · rw [abs_of_neg ‹v < 0›, ← abs_neg]
    push_cast
    congr 1
    ring
  · rw [abs_of_nonneg (not_lt.mp ‹¬v < 0›)]
    rfl

theorem abs_signed (v : Rat) (size : Nat) : |(signed v size : Rat)| = size := by
  unfold signed
  split <;> simp

/-! ### Rounding -/

theorem nearestAway_signed (v : Rat) :
    NearestAway v (signed v (nearestUp v.num.natAbs v.den)) := by
  have hle := nearestUp_le v.num.natAbs v.den_pos
  have hlt := lt_nearestUp v.num.natAbs v.den_pos
  rw [← abs_eq_div] at hle hlt
  constructor
  · rw [abs_sub_signed, abs_le]
    constructor <;> linarith
  · intro htie
    rw [abs_sub_signed] at htie
    rw [abs_signed]
    -- below a half the size is not rounded up, so half-way it lies below its rounding
    obtain h | h := eq_or_eq_neg_of_abs_eq htie <;> linarith

theorem nearestEven_signed (v : Rat) :
    NearestEven v (signed v (nearestEven v.num.natAbs v.den)) := by
  have hle := nearestEven_le v.num.natAbs v.den_pos
  have hge := le_nearestEven v.num.natAbs v.den_pos
  have hden : (0 : Rat) < v.den := Nat.cast_pos.mpr v.den_pos
  constructor
  · rw [abs_sub_signed, abs_eq_div v, abs_le]
    constructor <;> linarith
  · intro htie
    have heven : Even (nearestEven v.num.natAbs v.den) := by
      apply even_nearestEven_of_tie v.den_pos
      rw [abs_sub_signed, abs_eq_div v] at htie
      obtain h | h := eq_or_eq_neg_of_abs_eq htie
      · right
        field_simp at h
        have hcast : (2 * v.den * nearestEven v.num.natAbs v.den + v.den : Rat) =
            2 * v.num.natAbs := by linarith
        exact_mod_cast hcast
      · left
        field_simp at h
        have hcast : (2 * v.num.natAbs + v.den : Rat) =
            2 * v.den * nearestEven v.num.natAbs v.den := by linarith
        exact_mod_cast hcast
    unfold signed
    split
    · exact ((Int.even_coe_nat _).mpr heven).neg
    · exact (Int.even_coe_nat _).mpr heven

/-- A fraction in units of a decimal place is rounded like the fraction itself. -/
theorem abs_sub_scaled_le (v : Rat) (places : Nat) :
    |v * 10 ^ places - signed v (nearestEven (v.num.natAbs * 10 ^ places) v.den)| ≤ 1 / 2 := by
  have hpow : (0 : Rat) < 10 ^ places := by positivity
  have hle := nearestEven_le (v.num.natAbs * 10 ^ places) v.den_pos
  have hge := le_nearestEven (v.num.natAbs * 10 ^ places) v.den_pos
  have hsigned (size : Nat) : signed v size = signed (v * 10 ^ places) size := by
    have hneg : v * 10 ^ places < 0 ↔ v < 0 := by
      rw [← not_le, ← not_le, mul_nonneg_iff_of_pos_right hpow]
    unfold signed
    simp only [hneg]
  have hquotient : ((v.num.natAbs * 10 ^ places : Nat) / v.den : Rat) = |v * 10 ^ places| := by
    rw [abs_mul, abs_of_pos hpow, abs_eq_div v, div_mul_eq_mul_div]
    push_cast
    rfl
  rw [hquotient] at hle hge
  rw [hsigned, abs_sub_signed, abs_le]
  constructor <;> linarith

theorem round_eq_signed (v : Rat) : round v = signed v (nearestUp v.num.natAbs v.den) := by
  unfold round signed
  split <;> rfl

theorem signed_natAbs (k : Int) (v : Rat) (h : v < 0 ↔ k < 0) : signed v k.natAbs = k := by
  unfold signed
  split
  · have := h.mp ‹_›
    omega
  · have := mt h.mpr ‹_›
    omega

theorem round_intCast (k : Int) : round (k : Rat) = k := by
  have hmul := nearestUp_mul k.natAbs Nat.one_pos
  rw [Nat.mul_one] at hmul
  rw [round_eq_signed, Rat.num_intCast, Rat.den_intCast, hmul, signed_natAbs k k Int.cast_lt_zero]

theorem round_of_nonneg {v : Rat} (h : 0 ≤ v) :
    round v = (nearestUp v.num.natAbs v.den : Rat) := by
  rw [round_eq_signed, signed, if_neg (not_lt.mpr h), Int.cast_natCast]

/-- A half is not rounded to zero. -/
theorem one_le_round_iff {v : Rat} (h : 0 ≤ v) : 1 ≤ round v ↔ 1 / 2 ≤ v := by
  have hden : (0 : Rat) < v.den := Nat.cast_pos.mpr v.den_pos
  have hsize := abs_eq_div v
  rw [abs_of_nonneg h] at hsize
  rw [round_of_nonneg h, Nat.one_le_cast, Nat.one_le_iff_ne_zero, ← Nat.pos_iff_ne_zero,
    nearestUp_pos_iff _ v.den_pos]
  conv_rhs => rw [hsize, div_le_div_iff₀ two_pos hden, one_mul, mul_comm]
  norm_cast

/-- A half is rounded to zero. -/
theorem nearestEven_pos_iff_lt (v : Rat) (places : Nat) :
    0 < nearestEven (v.num.natAbs * 10 ^ places) v.den ↔ 1 / 2 < |v| * 10 ^ places := by
  have hden : (0 : Rat) < v.den := Nat.cast_pos.mpr v.den_pos
  rw [nearestEven_pos_iff _ v.den_pos, abs_eq_div, div_mul_eq_mul_div,
    div_lt_div_iff₀ two_pos hden, one_mul, mul_comm _ (2 : Rat)]
  norm_cast

/-! ### Text -/

/-- A whole number of units of the last place is written without rounding. -/
theorem fixed_units (places : Nat) (k : Int) :
    fixed places (k / 10 ^ places) =
      String.ofList (Decimal.signed (decide (k < 0)) (placed places k.natAbs)) := by
  have hpow : (0 : Rat) < 10 ^ places := by positivity
  have hneg : ((k : Rat) / 10 ^ places < 0) ↔ k < 0 := by
    rw [div_lt_iff₀ hpow, zero_mul, Int.cast_lt_zero]
  generalize hv : (k : Rat) / 10 ^ places = v at hneg
  have hsize : v.num.natAbs * Nat.pow 10 places = k.natAbs * v.den := by
    have habs := abs_eq_div v
    have hden : (v.den : Rat) ≠ 0 := Nat.cast_ne_zero.mpr v.den_nz
    rw [← hv, abs_div, abs_of_pos hpow, hv, div_eq_div_iff hpow.ne' hden, ← Int.cast_abs,
      ← Nat.cast_natAbs] at habs
    exact_mod_cast habs.symm
  have hneg' : decide (v < 0) = decide (k < 0) := decide_eq_decide.mpr hneg
  rw [fixed, Decimal.fixed, hsize, nearestEven_mul _ v.den_pos, hneg']

theorem toRat_units (k : Int) (places : Nat) :
    Numeral.toRat ⟨decide (k < 0), k.natAbs, -places⟩ = k / 10 ^ places := by
  unfold Numeral.toRat
  dsimp only
  rw [zpow_neg, zpow_natCast, ← div_eq_mul_inv, Nat.cast_natAbs]
  split
  · rw [abs_of_neg (of_decide_eq_true ‹_›)]
    push_cast
    ring
  · rw [abs_of_nonneg (not_lt.mp fun h => ‹¬_› (decide_eq_true h))]

end BasRelief.Exact
