import Mathlib.Algebra.Group.Int.Even
import Mathlib.Algebra.Order.Field.Basic
import Mathlib.Algebra.Order.Field.Power
import Mathlib.Algebra.Order.Field.Rat
import Mathlib.Tactic.Linarith
import Mathlib.Tactic.Positivity
import Mathlib.Tactic.Ring

/-!
# The double nearest to a fraction

A fraction is rounded to a whole number of units of its last place, and the size of the unit
follows from the size of the fraction. How far the rounding is off, and that it keeps what needs no
rounding, is said here of the fractions alone.
-/

namespace BasRelief.Double

/-- The power of two that is the unit in the last place of a fraction: 53 bits of the fraction lie
at or above it, or as many as there are above the least exponent. -/
structure LastPlace (q : Rat) (t : Int) : Prop where
  least : -1074 ≤ t
  full : t = -1074 ∨ 2 ^ 52 * 2 ^ t ≤ |q|
  bound : |q| < 2 ^ 53 * 2 ^ t

/-- A fraction and the nearest whole number of units in its last place; of two that are equally
near, the even one. -/
inductive Nearest (q : Rat) : Rat → Prop where
  | units (t r : Int) (place : LastPlace q t) (near : |q - r * 2 ^ t| ≤ 2 ^ t / 2)
      (tie : |q - r * 2 ^ t| = 2 ^ t / 2 → Even r) : Nearest q (r * 2 ^ t)

/-- The unit is no greater than one that is small enough for 53 bits. -/
theorem LastPlace.le_of_lt {q : Rat} {s t : Int} (h : LastPlace q s) (ht : -1074 ≤ t)
    (hq : |q| < 2 ^ 53 * 2 ^ t) : s ≤ t := by
  by_contra hlt
  obtain hleast | hfull := h.full
  · omega
  · have hpow : (2 : Rat) ^ (t + 1) ≤ 2 ^ s := zpow_le_zpow_right₀ one_le_two (by omega)
    rw [zpow_add_one₀ two_ne_zero] at hpow
    have hstep : (2 : Rat) ^ 53 * 2 ^ t ≤ 2 ^ 52 * 2 ^ s := by linarith
    exact absurd hq (not_lt.mpr (hstep.trans hfull))

theorem LastPlace.unique {q : Rat} {s t : Int} (h : LastPlace q s) (h' : LastPlace q t) : s = t :=
  le_antisymm (h.le_of_lt h'.least h'.bound) (h'.le_of_lt h.least h.bound)

/-- Zero, or not below the least number with all of its 53 bits. -/
def IsNormal (q : Rat) : Prop := q = 0 ∨ 2 ^ (-1022 : Int) ≤ |q|

theorem isNormal_div_pow_ten (k : Int) {places : Nat} (h : places ≤ 22) :
    IsNormal (k / 10 ^ places) := by
  obtain rfl | hne := eq_or_ne k 0
  · left
    rw [Int.cast_zero, zero_div]
  · right
    have hpow : (0 : Rat) < 10 ^ places := by positivity
    have hone : (1 : Rat) ≤ |(k : Rat)| := mod_cast Int.one_le_abs hne
    rw [abs_div, abs_of_pos hpow, le_div_iff₀ hpow]
    calc (2 : Rat) ^ (-1022 : Int) * 10 ^ places ≤ 2 ^ (-1022 : Int) * 10 ^ 22 := by
          gcongr
          norm_num
      _ ≤ 1 := by decide +kernel
      _ ≤ |(k : Rat)| := hone

namespace Nearest

theorem zero : Nearest 0 0 := by
  have hplace : LastPlace 0 (-1074) := ⟨le_rfl, .inl rfl, by rw [abs_zero]; positivity⟩
  have hnear : |(0 : Rat) - (0 : Int) * 2 ^ (-1074 : Int)| ≤ 2 ^ (-1074 : Int) / 2 := by
    rw [Int.cast_zero, zero_mul, sub_zero, abs_zero]
    positivity
  have h := units (-1074) 0 hplace hnear fun _ => Even.zero
  rwa [Int.cast_zero, zero_mul] at h

theorem neg {q v : Rat} (h : Nearest q v) : Nearest (-q) (-v) := by
  obtain ⟨t, r, ⟨hleast, hfull, hbound⟩, hnear, htie⟩ := h
  have hplace : LastPlace (-q) t := ⟨hleast, by rwa [abs_neg], by rwa [abs_neg]⟩
  have hsame : |-q - (-r : Int) * 2 ^ t| = |q - r * 2 ^ t| := by
    rw [Int.cast_neg, neg_mul, neg_sub_neg, abs_sub_comm]
  have hneg := units t (-r) hplace (hsame ▸ hnear) fun h => (htie (hsame ▸ h)).neg
  rwa [Int.cast_neg, neg_mul] at hneg

theorem unique {q v w : Rat} (h : Nearest q v) (h' : Nearest q w) : v = w := by
  obtain ⟨t, r, hplace, hnear, htie⟩ := h
  obtain ⟨t', r', hplace', hnear', htie'⟩ := h'
  obtain rfl := hplace.unique hplace'
  have hpos : (0 : Rat) < 2 ^ t := zpow_pos two_pos t
  obtain rfl | hne := eq_or_ne r r'
  · rfl
  exfalso
  have hone : (1 : Rat) ≤ |(r : Rat) - r'| := by
    have hint : 1 ≤ |r - r'| := Int.one_le_abs (sub_ne_zero.mpr hne)
    exact_mod_cast hint
  have hsplit : |(r : Rat) - r'| * 2 ^ t ≤ |q - r * 2 ^ t| + |q - r' * 2 ^ t| := by
    have htriangle := abs_sub_le (r * 2 ^ t : Rat) q (r' * 2 ^ t)
    rwa [← sub_mul, abs_mul, abs_of_pos hpos, abs_sub_comm (r * 2 ^ t : Rat)] at htriangle
  have hunit := mul_le_mul_of_nonneg_right hone hpos.le
  -- both are half a unit away, so both are even, and no more than one unit apart
  obtain ⟨a, ha⟩ := htie (by linarith)
  obtain ⟨b, hb⟩ := htie' (by linarith)
  have hclose : |(r : Rat) - r'| * 2 ^ t ≤ 1 * 2 ^ t := by linarith
  have hle : |r - r'| ≤ 1 := by
    have hcast := le_of_mul_le_mul_right hclose hpos
    exact_mod_cast hcast
  have hbounds := abs_le.mp hle
  omega

/-- What is a whole number of few enough units needs no rounding. -/
theorem eq_of_units {v : Rat} {k s : Int} (hk : |k| < 2 ^ 53) (hs : -1074 ≤ s)
    (h : Nearest (k * 2 ^ s) v) : v = k * 2 ^ s := by
  have hsize : |(k * 2 ^ s : Rat)| < 2 ^ 53 * 2 ^ s := by
    have hk' : |(k : Rat)| < 2 ^ 53 := mod_cast hk
    have hpos : (0 : Rat) < 2 ^ s := zpow_pos two_pos s
    rw [abs_mul, abs_of_pos hpos]
    exact mul_lt_mul_of_pos_right hk' hpos
  generalize hq : (k * 2 ^ s : Rat) = q at h hsize
  obtain ⟨t, r, hplace, hnear, _⟩ := h
  have hts : t ≤ s := hplace.le_of_lt hs hsize
  obtain ⟨n, rfl⟩ := Int.le.dest hts
  have hq' : q = ((k * 2 ^ n : Int) : Rat) * 2 ^ t := by
    rw [← hq, zpow_add₀ two_ne_zero, zpow_natCast]
    push_cast
    ring
  have hpos : (0 : Rat) < 2 ^ t := zpow_pos two_pos t
  have hdiff : |((k * 2 ^ n - r : Int) : Rat)| ≤ 1 / 2 := by
    rw [hq', ← sub_mul, abs_mul, abs_of_pos hpos] at hnear
    have hhalf := (le_div_iff₀ hpos).mpr hnear
    rw [div_div, mul_comm 2, ← div_div, div_self hpos.ne'] at hhalf
    rwa [Int.cast_sub]
  have hzero : |k * 2 ^ n - r| < 1 := by
    have hlt : |((k * 2 ^ n - r : Int) : Rat)| < 1 := by linarith
    exact_mod_cast hlt
  have hr : r = k * 2 ^ n := by
    have := Int.abs_lt_one_iff.mp hzero
    omega
  rw [hq', hr]

theorem eq_zero {v : Rat} (h : Nearest 0 v) : v = 0 := by
  have hunits : Nearest ((0 : Int) * 2 ^ (0 : Int)) v := by simpa using h
  rw [hunits.eq_of_units (by decide) (by decide), Int.cast_zero, zero_mul]

/-- A fraction that is not too small is off by at most one part in `2 ^ 53`. -/
theorem abs_sub_le {q v : Rat} (h : Nearest q v) (hq : IsNormal q) : |q - v| ≤ |q| / 2 ^ 53 := by
  obtain rfl | hnormal := hq
  · rw [h.eq_zero]
    norm_num
  obtain ⟨t, r, ⟨hleast, hfull, hbound⟩, hnear, _⟩ := h
  have hunit : (2 : Rat) ^ 52 * 2 ^ t ≤ |q| := by
    obtain rfl | hfull := hfull
    · refine le_trans (le_of_eq ?_) hnormal
      rw [← zpow_natCast, ← zpow_add₀ two_ne_zero]
      rfl
    · exact hfull
  rw [le_div_iff₀ (by positivity)]
  calc |q - r * 2 ^ t| * 2 ^ 53 ≤ 2 ^ t / 2 * 2 ^ 53 := by gcongr
    _ = 2 ^ 52 * 2 ^ t := by ring
    _ ≤ |q| := hunit

theorem nonneg {q v : Rat} (h : Nearest q v) (hq : 0 ≤ q) : 0 ≤ v := by
  obtain ⟨t, r, _, hnear, _⟩ := h
  have hpos : (0 : Rat) < 2 ^ t := zpow_pos two_pos t
  have hr : -(1 : Rat) < r := by
    by_contra hle
    have hmul : (r : Rat) * 2 ^ t ≤ -1 * 2 ^ t := by
      exact mul_le_mul_of_nonneg_right (not_lt.mp hle) hpos.le
    have hle' := (abs_le.mp hnear).2
    linarith
  have hr' : 0 ≤ r := by
    have : (-1 : Int) < r := by exact_mod_cast hr
    omega
  exact mul_nonneg (mod_cast hr') hpos.le

/-- A fraction that fits into 53 bits above a place is off by at most half a unit of it. -/
theorem abs_sub_le_half {q v : Rat} (h : Nearest q v) {t : Int} (ht : -1074 ≤ t)
    (hq : |q| < 2 ^ 53 * 2 ^ t) : |q - v| ≤ 2 ^ t / 2 := by
  obtain ⟨s, r, hplace, hnear, _⟩ := h
  have hunit : (2 : Rat) ^ s ≤ 2 ^ t :=
    zpow_le_zpow_right₀ one_le_two (hplace.le_of_lt ht hq)
  linarith

theorem pos {q v : Rat} (h : Nearest q v) (hq : 2 ^ (-1074 : Int) ≤ q) : 0 < v := by
  have hq0 : 0 < q := lt_of_lt_of_le (zpow_pos two_pos _) hq
  obtain ⟨t, r, hplace, hnear, _⟩ := h
  have hpos : (0 : Rat) < 2 ^ t := zpow_pos two_pos t
  have hhalf : (2 : Rat) ^ t / 2 < q := by
    obtain rfl | hfull := hplace.full
    · exact (half_lt_self hpos).trans_le hq
    · rw [abs_of_pos hq0] at hfull
      linarith
  have hlow := (abs_le.mp hnear).2
  linarith

/-- What is half a unit below a power of two is not rounded up to it. -/
theorem lt_of_lt_sub {q v : Rat} (h : Nearest q v) {n t : Int} (ht : -1074 ≤ t) (hn : n = t + 53)
    (hq : |q| < 2 ^ n - 2 ^ t / 2) : |v| < 2 ^ n := by
  have hbelow : |q| < 2 ^ n := hq.trans (sub_lt_self _ (half_pos (zpow_pos two_pos t)))
  have hpow : (2 : Rat) ^ n = 2 ^ 53 * 2 ^ t := by
    rw [hn, zpow_add₀ two_ne_zero, mul_comm]
    rfl
  have herror := h.abs_sub_le_half ht (hpow ▸ hbelow)
  have htriangle := abs_sub_abs_le_abs_sub v q
  rw [abs_sub_comm] at htriangle
  linarith

end Nearest

/-- Below the least mantissa of its exponent the doubles are twice as dense. -/
theorem nearest_below_lead {e : Int} (he : -1074 < e) {q : Rat}
    (hlow : (2 ^ 52 - 1 / 4) * 2 ^ e ≤ q) (hhigh : q < 2 ^ 52 * 2 ^ e) :
    Nearest q (2 ^ 52 * 2 ^ e) := by
  have hunit : (2 : Rat) ^ e = 2 ^ (e - 1) * 2 := by
    rw [← zpow_add_one₀ two_ne_zero, sub_add_cancel]
  have hpos : (0 : Rat) < 2 ^ (e - 1) := zpow_pos two_pos _
  rw [hunit] at hlow hhigh ⊢
  have hq : 0 < q := lt_of_lt_of_le (by norm_num; linarith) hlow
  have hplace : LastPlace q (e - 1) := by
    refine ⟨by omega, .inr ?_, ?_⟩ <;> rw [abs_of_pos hq] <;> linarith
  have hvalue : (2 : Rat) ^ 52 * (2 ^ (e - 1) * 2) = ((2 ^ 53 : Int) : Rat) * 2 ^ (e - 1) := by
    push_cast
    ring
  rw [hvalue] at hhigh ⊢
  have hnear : |q - ((2 ^ 53 : Int) : Rat) * 2 ^ (e - 1)| ≤ 2 ^ (e - 1) / 2 := by
    rw [abs_of_neg (sub_neg.mpr hhigh)]
    push_cast
    linarith
  exact .units (e - 1) (2 ^ 53) hplace hnear fun _ => by decide

end BasRelief.Double
