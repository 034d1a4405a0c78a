import BasRelief.Proofs.Decimal.ExactText
import Mathlib.Data.Rat.Floor

/-!
# Rounding and choosing in exact arithmetic

What the scalar operations are on fractions: a rounded fraction is a whole number at most a half
away, rounding keeps the order of fractions, the greater of two is their maximum, and a whole number
is all whole part.
-/

namespace BasRelief.Exact

theorem abs_sub_round_le (v : Rat) : |v - round v| ≤ 1 / 2 := by
  rw [round_eq_signed]
  exact (nearestAway_signed v).near

theorem exists_round_eq_intCast (v : Rat) : ∃ k : Int, round v = k := ⟨_, round_eq_signed v⟩

theorem round_natCast (n : Nat) : round (n : Rat) = n := by exact_mod_cast round_intCast n

theorem nearestAway_intCast (k : Int) : NearestAway (k : Rat) k := by
  constructor <;> norm_num

/-- The order could only be lost half-way between two whole numbers, where one rounding cannot go
away from zero both upwards and downwards. -/
theorem NearestAway.mono {v w : Rat} {j k : Int} (hv : NearestAway v j) (hw : NearestAway w k)
    (h : v ≤ w) : j ≤ k := by
  by_contra hlt
  have hstep : (k + 1 : Rat) ≤ j := by exact_mod_cast not_le.mp hlt
  obtain ⟨hvlow, -⟩ := abs_le.mp hv.near
  obtain ⟨-, hwhigh⟩ := abs_le.mp hw.near
  have hveq : v = k + 1 / 2 := by linarith
  have hweq : w = k + 1 / 2 := by linarith
  have hj : (j : Rat) = k + 1 := by linarith
  have hup : |v| < |(j : Rat)| := hv.tie (by rw [hveq, hj]; norm_num)
  have hdown : |w| < |(k : Rat)| := hw.tie (by rw [hweq]; norm_num)
  rw [hveq, hj, ← sq_lt_sq] at hup
  rw [hweq, ← sq_lt_sq] at hdown
  have hlow : (-1 : Rat) < k := by linarith
  have hhigh : (k : Rat) < 0 := by linarith
  norm_cast at hlow hhigh
  omega

theorem round_mono {v w : Rat} (h : v ≤ w) : round v ≤ round w := by
  rw [round_eq_signed, round_eq_signed]
  exact_mod_cast (nearestAway_signed v).mono (nearestAway_signed w) h

theorem maximum_eq_max (a b : Rat) : Scalar.maximum a b = max a b := by
  show (if decide (b < a) then a else b) = max a b
  by_cases h : b < a
  · rw [decide_eq_true h, if_pos rfl, max_eq_left h.le]
  · rw [decide_eq_false h, if_neg Bool.false_ne_true, max_eq_right (not_lt.mp h)]

theorem clamp_eq_max_min {low high : Rat} (h : low ≤ high) (a : Rat) :
    Scalar.clamp low high a = max low (min high a) := by
  show (if decide (a < low) then low else if decide (high < a) then high else a) = _
  by_cases hlow : a < low
  · rw [decide_eq_true hlow, if_pos rfl, min_eq_right (hlow.le.trans h), max_eq_left hlow.le]
  · rw [decide_eq_false hlow, if_neg Bool.false_ne_true]
    by_cases hhigh : high < a
    · rw [decide_eq_true hhigh, if_pos rfl, min_eq_left hhigh.le, max_eq_right h]
    · rw [decide_eq_false hhigh, if_neg Bool.false_ne_true, min_eq_right (not_lt.mp hhigh),
        max_eq_right (not_lt.mp hlow)]

theorem truncate_intCast (k : Int) : Scalar.truncate (k : Rat) = k.toNat :=
  congrArg Int.toNat (Rat.floor_intCast k)

end BasRelief.Exact
