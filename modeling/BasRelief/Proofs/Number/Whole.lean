import BasRelief.Number.Double
import BasRelief.Proofs.Number.Arithmetic

/-!
# Doubles of whole numbers and of numerals

A whole number of at most 53 bits is a double. A numeral with a fixed number of places is read as
the quotient of its units and a power of ten, which is rounded once.
-/

namespace BasRelief.Double
open Float.Model Float.Model.UnpackedFloat

/-! ### Whole numbers -/

theorem log2_mul_two_pow {m : Nat} (hm : 0 < m) (k : Nat) : (m * 2 ^ k).log2 = m.log2 + k := by
  have hpos : 0 < m * 2 ^ k := Nat.mul_pos hm (Nat.two_pow_pos k)
  rw [Nat.log2_eq_iff hpos.ne']
  constructor
  · rw [Nat.pow_add]
    exact Nat.mul_le_mul_right _ (Nat.log2_self_le hm.ne')
  · have hsucc : m.log2 + k + 1 = m.log2 + 1 + k := by omega
    rw [hsucc, Nat.pow_add]
    exact Nat.mul_lt_mul_of_pos_right Nat.lt_log2_self (Nat.two_pow_pos k)

theorem round_roundedTo (s : Sign) {m : Nat} (hm : 0 < m) (e : Int) :
    RoundedTo s (m * 2 ^ e) (UnpackedFloat.round Format.binary64 s m e) := by
  unfold UnpackedFloat.round decreaseExponent
  simp only [targetExponent_eq, Nat.shiftLeft_eq]
  generalize hk : (e - max (m.log2 + e - 52) (-1074)).toNat = k
  have hready : Ready (m * 2 ^ k) (e - k) := by
    unfold Ready
    rw [log2_mul_two_pow hm]
    omega
  have hrounded := roundWithAccuracy_roundedTo s (.exact (m * 2 ^ k)) hready
  have hvalue : ((m * 2 ^ k : Nat) : Rat) * 2 ^ (e - k) = m * 2 ^ e := by
    rw [zpow_sub₀ two_ne_zero, zpow_natCast]
    push_cast
    field_simp
  rwa [hvalue] at hrounded

/-- A rounded number that needs no rounding and is not too large is that number. -/
theorem Rounds.value_eq {x : Float} {k s : Int} (h : Rounds x (k * 2 ^ s)) (hk : |k| < 2 ^ 53)
    (hs : -1074 ≤ s) (hs' : s ≤ 971) : value? x = some ((k : Rat) * 2 ^ s) := by
  cases h with
  | finite hvalue near =>
    rw [hvalue, near.eq_of_units hk hs]
  | overflow infinite sign large =>
    exfalso
    have hpos : (0 : Rat) < 2 ^ s := zpow_pos two_pos s
    have hk' : |(k : Rat)| ≤ 2 ^ 53 - 1 := by
      have hsucc : |k| + 1 ≤ 2 ^ 53 := hk
      have hcast : (|(k : Rat)| + 1) ≤ 2 ^ 53 := mod_cast hsucc
      linarith
    have hunit : (2 : Rat) ^ s ≤ 2 * 2 ^ (970 : Int) := by
      rw [mul_comm, ← zpow_add_one₀ two_ne_zero]
      exact zpow_le_zpow_right₀ one_le_two hs'
    have hsmall : |(k * 2 ^ s : Rat)| < overflowBound := by
      rw [abs_mul, abs_of_pos hpos]
      calc |(k : Rat)| * 2 ^ s ≤ (2 ^ 53 - 1) * (2 * 2 ^ (970 : Int)) := by gcongr
        _ = (2 ^ 54 - 2) * 2 ^ (970 : Int) := by ring
        _ < overflowBound := by
          unfold overflowBound
          gcongr
          norm_num
    exact absurd large (not_le.mpr hsmall)

theorem value?_toFloat {n : Nat} (hn : n < 2 ^ 53) :
    value? n.toUInt64.toFloat = some (n : Rat) := by
  have hfloat : n.toUInt64.toFloat =
      .ofModel (.pack
        (UnpackedFloat.normalize Format.binary64 (n.toUInt64.toNat : Int) 0 .positive)) := rfl
  have hnat : n.toUInt64.toNat = n := by
    rw [UInt64.toNat_ofNat']
    exact Nat.mod_eq_of_lt (by omega)
  rw [hfloat, hnat]
  obtain rfl | hpos := Nat.eq_zero_or_pos n
  · decide +kernel
  · have hcompare : compare (n : Int) 0 = .gt := Int.compare_eq_gt.mpr (by omega)
    have hrounds := rounds_pack (by positivity) (round_roundedTo .positive hpos 0)
    rw [factor, one_mul, ← Int.cast_natCast (R := Rat) n] at hrounds
    simp only [UnpackedFloat.normalize, hcompare, Int.toNat_natCast]
    have hsize : |(n : Int)| < 2 ^ 53 := by
      rw [Nat.abs_cast]
      exact_mod_cast hn
    have hvalue := hrounds.value_eq hsize (by decide) (by decide)
    simpa using hvalue

/-- The powers of ten that a numeral is scaled by are whole numbers of few enough bits. -/
theorem value?_powerOfTen :
    ∀ (i : Nat) (h : i < Float.exactlyRepresentablePowersOfTen.size),
      value? Float.exactlyRepresentablePowersOfTen[i] = some ((10 : Rat) ^ i) := by
  decide +kernel

/-! ### Numerals -/

/-- A whole number and a power of ten of any size, by the product of both. -/
theorem rounds_scaled {n k : Nat} (hn : n ≠ 0) (hk : k ≤ 2048) :
    Rounds (.ofModel (Float.Model.ofScientific n k)) (n * 10 ^ k) := by
  have hpos := Nat.pos_of_ne_zero hn
  have hready : Ready (n * 2 ^ 53 * 10 ^ k) (-53) := by
    left
    have hlow : 2 ^ 53 ≤ n * 2 ^ 53 := Nat.le_mul_of_pos_left _ hpos
    have hhigh : n * 2 ^ 53 ≤ n * 2 ^ 53 * 10 ^ k := Nat.le_mul_of_pos_right _ (by positivity)
    exact (Nat.le_log2 (by omega)).mpr (by omega)
  have hrounded := roundWithAccuracy_roundedTo .positive (.exact (n * 2 ^ 53 * 10 ^ k)) hready
  have hvalue : ((n * 2 ^ 53 * 10 ^ k : Nat) : Rat) * 2 ^ (-53 : Int) = n * 10 ^ k := by
    rw [zpow_neg]
    push_cast
    field_simp
  rw [hvalue] at hrounded
  have hmodel : UnpackedFloat.ofScientific Format.binary64 n k =
      roundWithAccuracy Format.binary64 .positive (n * 2 ^ 53 * 10 ^ k) (-53) .exact := by
    have hhigh : ¬ (2 ^ Format.binary64.exponentBits : Int) < k := by
      show ¬ (2048 : Int) < k
      omega
    have hlow : ¬ (k : Int) < -((2 ^ Format.binary64.exponentBits : Int) + n.log2) := by
      show ¬ (k : Int) < -(2048 + n.log2)
      omega
    unfold UnpackedFloat.ofScientific
    rw [dif_neg hn, if_neg hhigh, if_neg hlow, if_pos (Int.natCast_nonneg k)]
    unfold UnpackedFloat.mul
    simp only [Nat.shiftLeft_eq, Int.toNat_natCast, add_zero]
    rfl
  rw [Float.Model.ofScientific, hmodel]
  have hrounds := rounds_pack (by positivity) hrounded
  rwa [factor, one_mul] at hrounds

theorem rounds_quotient {n places : Nat} (hn : n ≠ 0) (hp : 0 < places)
    (hp' : places ≤ 2048 + n.log2) :
    Rounds (.ofModel (Float.Model.ofScientific n (-places))) (n / 10 ^ places) := by
  have hlow : ¬ -(places : Int) < -((2 ^ Format.binary64.exponentBits : Int) + n.log2) := by
    show ¬ -(places : Int) < -(2048 + n.log2)
    omega
  have hhigh : ¬ (2 ^ Format.binary64.exponentBits : Int) < -(places : Int) := by
    show ¬ (2048 : Int) < -(places : Int)
    omega
  have hpower : (-(-(places : Int))).toNat = places := by omega
  have hvalue : (n / 10 ^ places : Rat) =
      dyadic .positive n 0 / dyadic .positive (10 ^ (-(-(places : Int))).toNat) 0 := by
    rw [dyadic, dyadic, factor, one_mul, one_mul, hpower, zpow_zero, mul_one, mul_one]
    push_cast
    rfl
  rw [hvalue]
  unfold Float.Model.ofScientific UnpackedFloat.ofScientific
  rw [dif_neg hn, if_neg hhigh, if_neg hlow, if_neg (by omega)]
  exact rounds_div_finite _ _

theorem rounds_ofScientific_zero (n : Nat) : Rounds (Float.ofScientific n false 0) n := by
  unfold Float.ofScientific
  split
  case isTrue h =>
    have hone := value?_powerOfTen 0 (by decide)
    have hmul := rounds_mul (value?_toFloat h.1) hone
    simpa using hmul
  case isFalse h =>
    have hn : n ≠ 0 := by
      rintro rfl
      exact h ⟨by decide, by decide⟩
    have hscaled := rounds_scaled hn (Nat.zero_le 2048)
    rwa [pow_zero, mul_one] at hscaled

theorem rounds_ofScientific_places (n : Nat) {places : Nat} (hp : 0 < places) (hp' : places ≤ 22) :
    Rounds (Float.ofScientific n true places) (n / 10 ^ places) := by
  unfold Float.ofScientific
  split
  case isTrue h =>
    have hpower := value?_powerOfTen places (Nat.lt_of_le_of_lt hp' (by decide))
    exact rounds_div (value?_toFloat h.1) hpower (by positivity)
  case isFalse h =>
    have hn : n ≠ 0 := by
      rintro rfl
      exact h ⟨by decide, hp'⟩
    have hexponent : Int.negOfNat places = -(places : Int) := Int.negOfNat_eq
    simp only [hexponent]
    exact rounds_quotient hn hp (by omega)

end BasRelief.Double
