import BasRelief.Proofs.Number.Nearest
import BasRelief.Proofs.Number.Unpacked
import Mathlib.Data.Nat.Log
import Mathlib.Tactic.FieldSimp

/-!
# Rounding to a double

A mantissa with two more bits says on which side of a half the rest of a number lies. Shifting keeps
what they say, so the mantissa is rounded as the number itself would be, and what a rounded
operation leaves is the double nearest to its exact result.
-/

namespace BasRelief.Double
open Float.Model Float.Model.UnpackedFloat

/-! ### What the last bits say -/

/-- The extended mantissa of a number that is not negative, in units of its last place. -/
def Stands (em : ExtendedMantissa) (u : Rat) : Prop :=
  match em.roundBit, em.stickyBit with
  | false, false => u = em.mantissa
  | false, true => em.mantissa < u ∧ u < em.mantissa + 1 / 2
  | true, false => u = em.mantissa + 1 / 2
  | true, true => em.mantissa + 1 / 2 < u ∧ u < em.mantissa + 1

theorem Stands.bounds {em : ExtendedMantissa} {u : Rat} (h : Stands em u) :
    em.mantissa ≤ u ∧ u < em.mantissa + 1 := by
  obtain ⟨m, roundBit, stickyBit⟩ := em
  cases roundBit <;> cases stickyBit <;> simp only [Stands] at h ⊢ <;>
    constructor <;> linarith

theorem Stands.shiftRightOne {em : ExtendedMantissa} {u : Rat} (h : Stands em u) :
    Stands em.shiftRightOne (u / 2) := by
  obtain ⟨m, roundBit, stickyBit⟩ := em
  have hdiv : (m : Rat) = 2 * (m / 2 : Nat) + (m % 2 : Nat) := by
    exact_mod_cast (Nat.div_add_mod m 2).symm
  obtain hmod | hmod := Nat.mod_two_eq_zero_or_one m
  -- the last bit of the mantissa becomes the round bit, the two bits below it the sticky bit
  · have hbit : ((0 : Nat) != 0) = false := rfl
    rw [hmod, Nat.cast_zero] at hdiv
    cases roundBit <;> cases stickyBit <;>
      simp only [Stands, ExtendedMantissa.shiftRightOne, hmod, hbit, Bool.or_self] at h ⊢ <;>
      first | linarith | constructor <;> linarith
  · have hbit : ((1 : Nat) != 0) = true := rfl
    rw [hmod, Nat.cast_one] at hdiv
    cases roundBit <;> cases stickyBit <;>
      simp only [Stands, ExtendedMantissa.shiftRightOne, hmod, hbit, Bool.or_self] at h ⊢ <;>
      first | linarith | constructor <;> linarith

theorem Stands.shiftRight {em : ExtendedMantissa} {u : Rat} (h : Stands em u) (n : Nat) :
    Stands (em >>> n) (u / 2 ^ n) := by
  show Stands (n.repeat ExtendedMantissa.shiftRightOne em) (u / 2 ^ n)
  induction n with
  | zero => simpa [Nat.repeat] using h
  | succ n ih =>
    have hstep := ih.shiftRightOne
    rwa [div_div, ← pow_succ] at hstep

theorem Stands.abs_sub_rounded {em : ExtendedMantissa} {u : Rat} (h : Stands em u) :
    |u - em.roundedMantissa| ≤ 1 / 2 := by
  obtain ⟨m, roundBit, stickyBit⟩ := em
  have hparity : ((m % 2 : Nat) : Rat) = 0 ∨ ((m % 2 : Nat) : Rat) = 1 := by
    obtain hmod | hmod := Nat.mod_two_eq_zero_or_one m <;> simp [hmod]
  cases roundBit <;> cases stickyBit <;>
    simp only [Stands, ExtendedMantissa.roundedMantissa, ExtendedMantissa.accuracy,
      Accuracy.roundToNearestEven, Nat.cast_add, Nat.cast_one] at h ⊢ <;>
    rw [abs_le]
  · constructor <;> linarith
  · constructor <;> linarith
  · obtain hzero | hone := hparity
    · rw [hzero]
      constructor <;> linarith
    · rw [hone]
      constructor <;> linarith
  · constructor <;> linarith

/-- Exactly a half is rounded up from an odd mantissa and down from an even one. -/
theorem Stands.even_rounded {em : ExtendedMantissa} {u : Rat} (h : Stands em u)
    (htie : |u - em.roundedMantissa| = 1 / 2) : Even em.roundedMantissa := by
  obtain ⟨m, roundBit, stickyBit⟩ := em
  cases roundBit <;> cases stickyBit <;>
    simp only [Stands, ExtendedMantissa.roundedMantissa, ExtendedMantissa.accuracy,
      Accuracy.roundToNearestEven, Nat.cast_add, Nat.cast_one] at h htie ⊢
  case true.false =>
    rw [Nat.even_iff]
    omega
  all_goals
    exfalso
    obtain htie | htie := eq_or_eq_neg_of_abs_eq htie <;> linarith

/-- A number in units of its last place, as a mantissa and what is known of the rest. -/
def Approximates (m : Nat) (acc : Accuracy) (u : Rat) : Prop :=
  Stands (.ofMantissaAndAccuracy m acc) u

theorem Approximates.exact (m : Nat) : Approximates m .exact m := rfl

/-! ### The exponent of the result -/

theorem targetExponent_eq (m : Nat) (e : Int) :
    Format.binary64.targetExponent (totalExponent m e) = max (m.log2 + e - 52) (-1074) := by
  have hleast : Format.binary64.minExponent = -1074 := rfl
  have hbits : ((Format.binary64.mantissaBits : Nat) : Int) = 53 := rfl
  rw [Format.targetExponent, totalExponent, hleast, hbits]
  congr 1
  ring

/-- Enough bits for a full mantissa, or the least exponent. -/
def Ready (m : Nat) (e : Int) : Prop := 52 ≤ m.log2 ∨ e ≤ -1074

theorem Ready.le_target {m : Nat} {e : Int} (h : Ready m e) :
    e ≤ max (m.log2 + e - 52) (-1074) := by
  obtain h | h := h <;> omega

theorem lastPlace_target {m : Nat} {e : Int} {u : Rat} (hready : Ready m e) (hlow : m ≤ u)
    (hhigh : u < m + 1) : LastPlace (u * 2 ^ e) (max (m.log2 + e - 52) (-1074)) := by
  have hpos : (0 : Rat) < 2 ^ e := zpow_pos two_pos e
  have habs : |u * 2 ^ e| = u * 2 ^ e :=
    abs_of_nonneg (mul_nonneg (m.cast_nonneg.trans hlow) hpos.le)
  have hbits : u < 2 ^ (m.log2 + 1) := by
    have hsucc : ((m + 1 : Nat) : Rat) ≤ (2 ^ (m.log2 + 1) : Nat) :=
      Nat.cast_le.mpr Nat.lt_log2_self
    push_cast at hsucc
    linarith
  refine ⟨le_max_right _ _, ?full, ?bound⟩
  case full =>
    rw [habs]
    obtain hle | hlt := le_or_gt (m.log2 + e - 52) (-1074)
    · exact .inl (max_eq_right hle)
    · right
      have hm : m ≠ 0 := by
        rintro rfl
        obtain h | h := hready
        · exact absurd h (by decide)
        · rw [Nat.log2_zero] at hlt
          omega
      have hlead : (2 : Rat) ^ m.log2 ≤ u := by
        have hself : ((2 ^ m.log2 : Nat) : Rat) ≤ m := Nat.cast_le.mpr (Nat.log2_self_le hm)
        push_cast at hself
        linarith
      have hexponent : ((52 : Nat) : Int) + (m.log2 + e - 52) = (m.log2 : Nat) + e := by
        push_cast
        ring
      rw [max_eq_left hlt.le, ← zpow_natCast, ← zpow_add₀ two_ne_zero, hexponent,
        zpow_add₀ two_ne_zero, zpow_natCast]
      exact mul_le_mul_of_nonneg_right hlead hpos.le
  case bound =>
    have hexponent : ((53 : Nat) : Int) + (m.log2 + e - 52) = ((m.log2 + 1 : Nat) : Int) + e := by
      push_cast
      ring
    rw [habs]
    calc u * 2 ^ e < 2 ^ (m.log2 + 1) * 2 ^ e := mul_lt_mul_of_pos_right hbits hpos
      _ = 2 ^ 53 * 2 ^ (m.log2 + e - 52) := by
        rw [← zpow_natCast, ← zpow_natCast, ← zpow_add₀ two_ne_zero, ← zpow_add₀ two_ne_zero,
          hexponent]
      _ ≤ 2 ^ 53 * 2 ^ max (m.log2 + e - 52) (-1074) := by
        gcongr
        · exact one_le_two
        · exact le_max_left _ _

/-! ### Rounding -/

theorem mantissa_shiftRight (em : ExtendedMantissa) (n : Nat) :
    (em >>> n).mantissa = em.mantissa / 2 ^ n := by
  show (n.repeat ExtendedMantissa.shiftRightOne em).mantissa = em.mantissa / 2 ^ n
  induction n with
  | zero => simp [Nat.repeat]
  | succ n ih =>
    show (n.repeat ExtendedMantissa.shiftRightOne em).mantissa / 2 = _
    rw [ih, Nat.div_div_eq_div_mul, ← Nat.pow_succ]

/-- A mantissa that rounding has made too long by one bit loses it, and no value with it. -/
theorem shift_rounded {r : Nat} {t : Int} (ht : -1074 ≤ t) (hr : r ≤ 2 ^ 53)
    (hfull : 2 ^ 52 ≤ r ∨ t = -1074) {em : ExtendedMantissa} {e : Int}
    (hshifted : shiftToTargetExponent Format.binary64 r t .exact = (em, e)) :
    Canonical em.mantissa e ∧ (em.mantissa * 2 ^ e : Rat) = r * 2 ^ t := by
  simp only [shiftToTargetExponent, shiftToExponent, targetExponent_eq, Prod.mk.injEq] at hshifted
  obtain ⟨rfl, rfl⟩ := hshifted
  rw [mantissa_shiftRight, ExtendedMantissa.ofMantissaAndAccuracy]
  obtain hlt | rfl := hr.lt_or_eq
  · have hlog : r.log2 < 53 := by
      obtain rfl | hne := eq_or_ne r 0
      · decide
      · exact (Nat.log2_lt hne).mpr hlt
    have hshift : (max (r.log2 + t - 52) (-1074) - t).toNat = 0 := by omega
    rw [hshift, Nat.pow_zero, Nat.div_one, Nat.cast_zero, add_zero]
    exact ⟨⟨ht, hlt, hfull⟩, rfl⟩
  · have hshift : (max (((2 ^ 53 : Nat).log2 : Nat) + t - 52) (-1074) - t).toNat = 1 := by
      rw [Nat.log2_two_pow]
      omega
    have hhalf : 2 ^ 53 / 2 ^ 1 = 2 ^ 52 := by decide
    rw [hshift, hhalf]
    refine ⟨⟨by omega, by decide, .inl le_rfl⟩, ?_⟩
    rw [Nat.cast_one, zpow_add_one₀ two_ne_zero]
    push_cast
    ring

/-- Rounded to units of its last place, a fraction keeps the size of a mantissa. -/
theorem nearest_of_units {w : Rat} {r : Nat} {t : Int} (hplace : LastPlace (w * 2 ^ t) t)
    (hw : 0 ≤ w) (hround : |w - r| ≤ 1 / 2) (heven : |w - r| = 1 / 2 → Even r) :
    Nearest (w * 2 ^ t) (r * 2 ^ t) ∧ r ≤ 2 ^ 53 ∧ (2 ^ 52 ≤ r ∨ t = -1074) := by
  have hpos : (0 : Rat) < 2 ^ t := zpow_pos two_pos t
  have hsize : |w * 2 ^ t| = w * 2 ^ t := abs_of_nonneg (by positivity)
  have hdistance : |w * 2 ^ t - (r : Int) * 2 ^ t| = |w - r| * 2 ^ t := by
    rw [Int.cast_natCast, ← sub_mul, abs_mul, abs_of_pos hpos]
  obtain ⟨hlow, hhigh⟩ := abs_le.mp hround
  refine ⟨?near, ?bound, ?full⟩
  case near =>
    have hunits := Nearest.units t r hplace
      (by rw [hdistance, ← one_div_mul_eq_div]; exact mul_le_mul_of_nonneg_right hround hpos.le)
      fun htie => by
        rw [hdistance, ← one_div_mul_eq_div] at htie
        exact (Int.even_coe_nat r).mpr (heven (mul_right_cancel₀ hpos.ne' htie))
    rwa [Int.cast_natCast] at hunits
  case bound =>
    have hlt : w < 2 ^ 53 := lt_of_mul_lt_mul_right (hsize ▸ hplace.bound) hpos.le
    have hcast : (r : Rat) < ((2 ^ 53 + 1 : Nat) : Rat) := by
      push_cast
      linarith
    exact Nat.lt_succ_iff.mp (Nat.cast_lt.mp hcast)
  case full =>
    obtain hleast | hfull := hplace.full
    · exact .inr hleast
    · left
      have hle : 2 ^ 52 ≤ w := le_of_mul_le_mul_right (hsize ▸ hfull) hpos
      have hcast : ((2 ^ 52 : Nat) : Rat) < ((r + 1 : Nat) : Rat) := by
        push_cast
        linarith
      exact Nat.lt_succ_iff.mp (Nat.cast_lt.mp hcast)

/-- A rounded result is zero or has a canonical pair, and its value is nearest to the number that
the mantissa, the exponent and the accuracy stand for. -/
inductive RoundedTo (s : Sign) (q : Rat) : UnpackedFloat → Prop where
  | zero (near : Nearest q 0) : RoundedTo s q (.zero s)
  | finite {m : Nat} {e : Int} {hm : 0 < m} (canonical : Canonical m e)
      (near : Nearest q (m * 2 ^ e)) : RoundedTo s q (.finite s m e hm)

theorem roundedTo_of_canonical (s : Sign) {q : Rat} {m : Nat} {e : Int} (h : Canonical m e)
    (hnear : Nearest q (m * 2 ^ e)) :
    RoundedTo s q (if hm : m = 0 then .zero s else .finite s m e (Nat.pos_of_ne_zero hm)) := by
  by_cases hm : m = 0
  · rw [dif_pos hm]
    rw [hm, Nat.cast_zero, zero_mul] at hnear
    exact .zero hnear
  · rw [dif_neg hm]
    exact .finite h hnear

theorem roundWithAccuracy_roundedTo (s : Sign) {m : Nat} {e : Int} {acc : Accuracy} {u : Rat}
    (happrox : Approximates m acc u) (hready : Ready m e) :
    RoundedTo s (u * 2 ^ e) (roundWithAccuracy Format.binary64 s m e acc) := by
  have hm : (ExtendedMantissa.ofMantissaAndAccuracy m acc).mantissa = m := by
    rcases acc with _ | _ | _ | _ <;> rfl
  obtain ⟨hlow, hhigh⟩ := Stands.bounds happrox
  rw [hm] at hlow hhigh
  have hplace := lastPlace_target hready hlow hhigh
  have htarget := hready.le_target
  generalize ht : max (m.log2 + e - 52) (-1074) = t at hplace htarget
  obtain ⟨n, rfl⟩ := Int.le.dest htarget
  have hshift : (e + n - e).toNat = n := by omega
  have hfirst : shiftToTargetExponent Format.binary64 m e acc =
      (ExtendedMantissa.ofMantissaAndAccuracy m acc >>> n, e + n) := by
    unfold shiftToTargetExponent
    simp only [targetExponent_eq, ht, shiftToExponent, hshift]
  -- what is left of the number in units of the place it is rounded at
  have hscale : u * 2 ^ e = u / 2 ^ n * 2 ^ (e + n) := by
    rw [zpow_add₀ two_ne_zero, zpow_natCast]
    field_simp
  have hstands := Stands.shiftRight happrox n
  rw [hscale] at hplace ⊢
  obtain ⟨hnear, hbound, hfull⟩ := nearest_of_units hplace
    (div_nonneg (m.cast_nonneg.trans hlow) (by positivity)) hstands.abs_sub_rounded
    hstands.even_rounded
  generalize hsecond : shiftToTargetExponent Format.binary64
    (ExtendedMantissa.ofMantissaAndAccuracy m acc >>> n).roundedMantissa (e + n) .exact = last
  obtain ⟨hcanonical, hvalue⟩ := shift_rounded hplace.least hbound hfull hsecond
  rw [← hvalue] at hnear
  rw [roundWithAccuracy, hfirst]
  dsimp only
  rw [hsecond]
  exact roundedTo_of_canonical s hcanonical hnear

end BasRelief.Double
