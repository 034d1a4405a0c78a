import BasRelief.Proofs.Number.LowerBound
import Mathlib.Data.Rat.Floor

/-!
# Whole numbers out of doubles

A double is rounded up to the least whole number above its value, and cut to a natural number that
is not above it.
-/

namespace BasRelief.Double
open Float.Model Float.Model.UnpackedFloat

/-! ### Rounding up -/

theorem ceil_div (num : Nat) {den : Nat} (h : 0 < den) :
    ⌈(num / den : Rat)⌉ = (Decimal.above num den : Int) := by
  have hden : (0 : Rat) < den := Nat.cast_pos.mpr h
  obtain ⟨hlow, hhigh⟩ := Decimal.above_bounds num h
  have hlow' : (num : Rat) ≤ den * Decimal.above num den := mod_cast hlow
  have hhigh' : (den * Decimal.above num den : Rat) < num + den := mod_cast hhigh
  rw [Int.ceil_eq_iff, Int.cast_natCast]
  constructor
  · rw [lt_div_iff₀ hden]
    linarith
  · rw [div_le_iff₀ hden]
    linarith

theorem floor_div (num den : Nat) : ⌊(num / den : Rat)⌋ = ((num / den : Nat) : Int) :=
  Rat.floor_natCast_div_natCast num den

theorem above_le_self {num den : Nat} (h : 0 < den) : Decimal.above num den ≤ num := by
  obtain ⟨_, hhigh⟩ := Decimal.above_bounds num h
  obtain rfl | hpos := Nat.eq_zero_or_pos num
  · by_contra hne
    have hself : den ≤ den * Decimal.above 0 den := Nat.le_mul_of_pos_right _ (by omega)
    omega
  · have hproduct : num ≤ num * den := Nat.le_mul_of_pos_right num h
    rw [Decimal.above, ← Nat.lt_succ_iff, Nat.div_lt_iff_lt_mul h, Nat.succ_mul]
    omega

theorem value?_ceiling {x : Float} {a : Rat} (hx : value? x = some a) :
    value? (Double.ceiling x) = some (⌈a⌉ : Rat) := by
  have hvalue := hasValue_unpack hx
  unfold Double.ceiling Binary.ofFloat
  generalize x.toModel.unpack = f at hvalue
  cases hvalue with
  | zero s ha =>
    dsimp only
    rw [if_pos le_rfl, hx, ha, Int.ceil_zero, Int.cast_zero]
  | @finite s m e hm canonical ha =>
    dsimp only
    split
    case isTrue he =>
      obtain ⟨n, rfl⟩ := Int.eq_ofNat_of_zero_le he
      obtain ⟨k, hk⟩ := dyadic_natCast s m n
      rw [hx, ha, hk, Int.ceil_intCast]
    case isFalse he =>
      have hnum := (quotient_lt (m := m) (e := e) (by omega)).1
      have hden := Binary.quotient_den_pos m e
      have hquotient := quotient_eq m e
      cases s with
      | negative =>
        have hsmall : (Binary.quotient m e).1 / (Binary.quotient m e).2 < 2 ^ 53 := by
          rw [hnum]
          exact (Nat.div_le_self _ _).trans_lt canonical.bound
        have hsign : (Sign.negative == Sign.negative) = true := rfl
        rw [hsign, if_pos rfl, value?_ofWhole _ hsmall, ha, dyadic_negative, ← hquotient,
          Int.ceil_neg, floor_div, if_pos rfl, Int.cast_neg, Int.cast_natCast]
      | positive =>
        have hsmall : Decimal.above (Binary.quotient m e).1 (Binary.quotient m e).2 < 2 ^ 53 := by
          rw [hnum]
          exact (above_le_self hden).trans_lt canonical.bound
        have hsign : (Sign.positive == Sign.negative) = false := rfl
        rw [hsign, if_neg Bool.false_ne_true, value?_ofWhole _ hsmall, ha, dyadic_positive,
          ← hquotient, ceil_div _ hden, if_neg Bool.false_ne_true, Int.cast_natCast]

/-! ### Cutting to natural numbers -/

theorem roundToInt_eq (s : Sign) (m : Nat) (e : Int) :
    roundToInt s m e = s.apply ((m * 2 ^ e.toNat / 2 ^ (-e).toNat : Nat) : Int) := by
  have hshift : (0 - (e - ((e - 0).toNat : Int))).toNat = (-e).toNat := by omega
  unfold roundToInt decreaseExponent shiftToExponent
  dsimp only
  rw [mantissa_shiftRight, hshift, Int.sub_zero, Nat.shiftLeft_eq]
  rfl

theorem natCast_mul_two_pow (m : Nat) (e : Int) :
    ((m * 2 ^ e.toNat : Nat) : Rat) = m * 2 ^ e * 2 ^ (-e).toNat := by
  have hexponent : (e.toNat : Int) = e + (-e).toNat := by omega
  rw [Nat.cast_mul, Nat.cast_pow, Nat.cast_ofNat, ← zpow_natCast, hexponent,
    zpow_add₀ two_ne_zero, zpow_natCast, mul_assoc]

theorem roundToInt_le {s : Sign} {m : Nat} {e : Int} {n : Nat} (h : dyadic s m e ≤ n) :
    roundToInt s m e ≤ n := by
  rw [roundToInt_eq]
  cases s with
  | negative => exact (neg_nonpos.mpr (Int.natCast_nonneg _)).trans (Int.natCast_nonneg n)
  | positive =>
    rw [dyadic_positive] at h
    have hproduct : ((m * 2 ^ e.toNat : Nat) : Rat) ≤ ((n * 2 ^ (-e).toNat : Nat) : Rat) := by
      rw [natCast_mul_two_pow, Nat.cast_mul, Nat.cast_pow, Nat.cast_ofNat]
      exact mul_le_mul_of_nonneg_right h (by positivity)
    exact Int.ofNat_le.mpr (Nat.div_le_of_le_mul (by
      rw [mul_comm (2 ^ (-e).toNat)]
      exact Nat.cast_le.mp hproduct))

/-- Cutting gives no more than the value; a count beyond a machine word is cut further. -/
theorem truncate_le {x : Float} {a : Rat} {n : Nat} (hx : value? x = some a) (ha : a ≤ n) :
    Scalar.truncate x ≤ n := by
  have hvalue := hasValue_unpack hx
  have hcut : (toInt 0 (UInt64.size - 1) x.toModel.unpack).toNat ≤ n := by
    generalize x.toModel.unpack = f at hvalue
    cases hvalue with
    | zero s h => exact Nat.zero_le n
    | finite canonical h => exact Int.toNat_le.mpr (roundToInt_le (h ▸ ha))
  show (UInt64.ofNatClamp (toInt 0 (UInt64.size - 1) x.toModel.unpack).toNat).toNat ≤ n
  unfold UInt64.ofNatClamp
  split
  case isTrue h => rwa [UInt64.toNat_ofNatLT]
  case isFalse h =>
    rw [UInt64.toNat_ofNatLT]
    exact (Nat.sub_le_of_le_add (by omega)).trans hcut

theorem le_roundToInt {s : Sign} {m : Nat} {e : Int} (hm : 0 < m) {n : Nat}
    (h : (n : Rat) ≤ dyadic s m e) : (n : Int) ≤ roundToInt s m e := by
  have hpos : (0 : Rat) < m * 2 ^ e := mul_pos (Nat.cast_pos.mpr hm) (zpow_pos two_pos e)
  rw [roundToInt_eq]
  cases s with
  | negative =>
    rw [dyadic_negative] at h
    exact absurd ((Nat.cast_nonneg n).trans h) (not_le.mpr (neg_neg_of_pos hpos))
  | positive =>
    rw [dyadic_positive] at h
    have hscaled : ((n * 2 ^ (-e).toNat : Nat) : Rat) ≤ ((m * 2 ^ e.toNat : Nat) : Rat) := by
      rw [natCast_mul_two_pow m e, Nat.cast_mul, Nat.cast_pow, Nat.cast_ofNat]
      exact mul_le_mul_of_nonneg_right h (by positivity)
    exact Int.ofNat_le.mpr ((Nat.le_div_iff_mul_le (by positivity)).mpr (Nat.cast_le.mp hscaled))

/-- Cutting gives every whole number up to the value that fits into a machine word. -/
theorem le_truncate {x : Float} {a : Rat} {n : Nat} (hx : value? x = some a) (ha : (n : Rat) ≤ a)
    (hn : n < UInt64.size) : n ≤ Scalar.truncate x := by
  have hvalue := hasValue_unpack hx
  have hcut : n ≤ (toInt 0 (UInt64.size - 1) x.toModel.unpack).toNat := by
    generalize x.toModel.unpack = f at hvalue
    cases hvalue with
    | zero s h =>
      rw [h] at ha
      exact (Nat.cast_le.mp (ha.trans Nat.cast_zero.ge)).trans (Nat.zero_le _)
    | @finite s m e hm canonical h =>
      have hround : (n : Int) ≤ roundToInt s m e := le_roundToInt hm (h ▸ ha)
      show n ≤ (roundToInt s m e).toNat
      omega
  show n ≤ (UInt64.ofNatClamp (toInt 0 (UInt64.size - 1) x.toModel.unpack).toNat).toNat
  unfold UInt64.ofNatClamp
  split
  case isTrue h => rwa [UInt64.toNat_ofNatLT]
  case isFalse h =>
    rw [UInt64.toNat_ofNatLT]
    omega

/-! ### The greater of two -/

theorem isNumber_of_value? {x : Float} {a : Rat} (hx : value? x = some a) :
    Scalar.isNumber x = true := by
  have hvalue := hasValue_unpack hx
  show (!x.toModel.unpack.isNaN) = true
  generalize x.toModel.unpack = f at hvalue
  cases hvalue <;> rfl

theorem value?_maximum {x y : Float} {a b : Rat} (hx : value? x = some a)
    (hy : value? y = some b) : value? (Scalar.maximum x y) = some (max a b) := by
  unfold Scalar.maximum
  rw [isNumber_of_value? hy, if_neg (by decide)]
  by_cases hlt : Scalar.less y x = true
  · rw [if_pos hlt, hx, max_eq_left ((less_iff hy hx).mp hlt).le]
  · rw [if_neg hlt, hy, max_eq_right (not_lt.mp (mt (less_iff hy hx).mpr hlt))]

/-! ### Large counts -/

theorem ceiling_infinite {x : Float} {s : Sign} (hx : x.toModel.unpack = .infinity s) :
    Double.ceiling x = x := by
  unfold Double.ceiling Binary.ofFloat
  rw [hx]

namespace AtLeast
variable {x y : Float} {b c : Rat}

theorem ceiling (h : AtLeast c x) : AtLeast c (Scalar.ceiling x) := by
  cases h with
  | finite hvalue hle => exact .finite (value?_ceiling hvalue) (hle.trans (Int.le_ceil _))
  | infinite h => exact .infinite (by rw [show Scalar.ceiling x = x from ceiling_infinite h, h])

theorem maximum (h : AtLeast c x) (hy : value? y = some b) : AtLeast c (Scalar.maximum x y) := by
  cases h with
  | finite hvalue hle => exact .finite (value?_maximum hvalue hy) (hle.trans (le_max_left _ _))
  | infinite h => exact .infinite (maximum_infinite h (isNumber_of_value? hy))

theorem le_truncate {n : Nat} (h : AtLeast c x) (hc : n ≤ c) (hn : n < UInt64.size) :
    n ≤ Scalar.truncate x := by
  cases h with
  | finite hvalue hle => exact Double.le_truncate hvalue (hc.trans hle) hn
  | infinite h =>
    have hmost : Scalar.truncate x = UInt64.size - 1 := by
      show (UInt64.ofNatClamp (toInt 0 (UInt64.size - 1) x.toModel.unpack).toNat).toNat = _
      rw [h]
      rfl
    omega

end AtLeast

/-! ### Gaps below powers of two -/

theorem Canonical.le_of_lt {m : Nat} {e t : Int} (h : Canonical m e) (ht : -1074 ≤ t)
    (hlt : (m * 2 ^ e : Rat) < 2 ^ 53 * 2 ^ t) : (m * 2 ^ e : Rat) ≤ (2 ^ 53 - 1) * 2 ^ t := by
  have hpos : (0 : Rat) < 2 ^ e := zpow_pos two_pos e
  obtain he | he := le_or_gt e t
  · have hmantissa : (m : Rat) ≤ 2 ^ 53 - 1 := by
      have hcast : (m + 1 : Rat) ≤ 2 ^ 53 := mod_cast Nat.succ_le_of_lt h.bound
      linarith
    have hunit : (2 : Rat) ^ e ≤ 2 ^ t := zpow_le_zpow_right₀ one_le_two he
    exact mul_le_mul hmantissa hunit hpos.le (by norm_num)
  · have hfull : (2 : Rat) ^ 52 ≤ m := by
      obtain hfull | hleast := h.full
      · exact_mod_cast hfull
      · omega
    have hunit : (2 : Rat) ^ t * 2 ≤ 2 ^ e := by
      rw [← zpow_add_one₀ two_ne_zero]
      exact zpow_le_zpow_right₀ one_le_two he
    have hlarge : (2 : Rat) ^ 53 * 2 ^ t ≤ m * 2 ^ e := by
      calc (2 : Rat) ^ 53 * 2 ^ t = (2 : Rat) ^ 52 * (2 ^ t * 2) := by ring
        _ ≤ (m : Rat) * 2 ^ e := by gcongr
    exact absurd hlt (not_lt.mpr hlarge)

/-- A double below a power of two is at least one of its last places below it. -/
theorem value_le_of_lt {x : Float} {a : Rat} {t : Int} (hx : value? x = some a)
    (ht : -1074 ≤ t) (ha : a < 2 ^ 53 * 2 ^ t) : a ≤ (2 ^ 53 - 1) * 2 ^ t := by
  have hbound : (0 : Rat) ≤ (2 ^ 53 - 1) * 2 ^ t :=
    mul_nonneg (by norm_num) (zpow_pos two_pos t).le
  have hvalue := hasValue_unpack hx
  generalize x.toModel.unpack = f at hvalue
  cases hvalue with
  | zero s h => rwa [h]
  | @finite s m e hm canonical h =>
    cases s with
    | negative =>
      rw [h, dyadic_negative]
      exact (neg_nonpos.mpr (by positivity)).trans hbound
    | positive =>
      rw [h, dyadic_positive] at ha ⊢
      exact canonical.le_of_lt ht ha

end BasRelief.Double
