import BasRelief.Proofs.Decimal.ExactText
import BasRelief.Proofs.Number.Order

/-!
# Doubles rounded and printed by their value

Rounding a double to a whole number and printing it with a fixed number of places are what exact
arithmetic makes of its value. Only the sign of a zero shows that the number was a double.
-/

namespace BasRelief.Double
open Float.Model Float.Model.UnpackedFloat

/-! ### Signs -/

theorem value?_neg {x : Float} {a : Rat} (hx : value? x = some a) : value? (-x) = some (-a) := by
  have hfinite {s : Sign} {m : Nat} {e : Int} {hm : 0 < m}
      (hunpack : x.toModel.unpack = .finite s m e hm) : Canonical m e ∧ e ≤ 971 :=
    canonical_of_unpack hunpack
  rw [value?_eq_rational?] at hx
  rw [neg_eq_pack, value?_eq_rational?]
  cases hunpack : x.toModel.unpack with
  | notANumber =>
    rw [hunpack] at hx
    cases hx
  | infinity s =>
    rw [hunpack] at hx
    cases hx
  | zero s =>
    rw [hunpack] at hx
    obtain rfl := Option.some.inj hx
    have hneg : UnpackedFloat.neg (.zero s) = .zero (-s) := rfl
    rw [hneg, unpack_pack_zero, neg_zero]
    rfl
  | finite s m e hm =>
    obtain ⟨hcanonical, he⟩ := hfinite hunpack
    rw [hunpack] at hx
    obtain rfl := Option.some.inj hx
    have hneg : UnpackedFloat.neg (.finite s m e hm) = .finite (-s) m e hm := rfl
    rw [hneg, unpack_pack_finite hcanonical he]
    show some (dyadic (-s) m e) = some (-dyadic s m e)
    rw [dyadic, dyadic, factor_neg, neg_mul]

theorem value?_ofNat {n : Nat} (hn : n < 2 ^ 53) : value? (Float.ofNat n) = some (n : Rat) := by
  have hrounds : Rounds (Float.ofNat n) (n : Rat) := rounds_ofScientific_zero n
  have hcast : (n : Rat) = ((n : Int) : Rat) * 2 ^ (0 : Int) := by simp
  rw [hcast] at hrounds ⊢
  apply hrounds.value_eq _ (by decide) (by decide)
  rw [Nat.abs_cast]
  exact_mod_cast hn

theorem value?_ofWhole (negative : Bool) {n : Nat} (hn : n < 2 ^ 53) :
    value? (ofWhole negative n) = some (if negative then -(n : Rat) else n) := by
  cases negative with
  | false => exact value?_ofNat hn
  | true => exact value?_neg (value?_ofNat hn)

/-! ### Rounding to whole numbers -/

theorem quotient_lt {m : Nat} {e : Int} (he : e < 0) :
    (Binary.quotient m e).1 = m ∧ 2 ≤ (Binary.quotient m e).2 := by
  unfold Binary.quotient
  rw [if_neg (by omega)]
  refine ⟨rfl, ?_⟩
  calc 2 = 2 ^ 1 := rfl
    _ ≤ 2 ^ (-e).toNat := Nat.pow_le_pow_right two_pos (by omega)

/-- Rounding the quotient of a mantissa and an exponent is rounding the size of the value. -/
theorem cross_mul_quotient (s : Sign) (m : Nat) (e : Int) :
    (dyadic s m e).num.natAbs * (Binary.quotient m e).2 =
      (Binary.quotient m e).1 * (dyadic s m e).den := by
  have hquotient := quotient_eq m e
  have hvalue := Exact.abs_eq_div (dyadic s m e)
  have hden : ((Binary.quotient m e).2 : Rat) ≠ 0 :=
    Nat.cast_ne_zero.mpr (Binary.quotient_den_pos m e).ne'
  have hden' : ((dyadic s m e).den : Rat) ≠ 0 := Nat.cast_ne_zero.mpr (dyadic s m e).den_nz
  rw [abs_dyadic, ← hquotient, div_eq_div_iff hden hden'] at hvalue
  exact_mod_cast hvalue.symm

theorem dyadic_neg_iff {s : Sign} {m : Nat} (hm : 0 < m) (e : Int) :
    dyadic s m e < 0 ↔ s = .negative := by
  have hsize : (0 : Rat) < m * 2 ^ e := mul_pos (Nat.cast_pos.mpr hm) (zpow_pos two_pos e)
  cases s with
  | negative =>
    rw [dyadic_negative]
    exact ⟨fun _ => rfl, fun _ => neg_neg_of_pos hsize⟩
  | positive =>
    rw [dyadic_positive]
    exact ⟨fun h => absurd h (not_lt.mpr hsize.le), fun h => by cases h⟩

/-- The value of a double with no place after the point is whole. -/
theorem dyadic_natCast (s : Sign) (m n : Nat) :
    ∃ k : Int, dyadic s m n = (k : Rat) := by
  cases s with
  | negative => exact ⟨-(m * 2 ^ n), by rw [dyadic_negative, zpow_natCast]; push_cast; rfl⟩
  | positive => exact ⟨m * 2 ^ n, by rw [dyadic_positive, zpow_natCast]; push_cast; rfl⟩

theorem value?_ofWhole_nearestUp {s : Sign} {m : Nat} {e : Int} (hm : 0 < m) (hm' : m < 2 ^ 53)
    (he : e < 0) :
    value? (ofWhole (s == .negative)
        (Decimal.nearestUp (Binary.quotient m e).1 (Binary.quotient m e).2)) =
      some (Exact.round (dyadic s m e) : Rat) := by
  obtain ⟨hnum, hden⟩ := quotient_lt (m := m) he
  have hsmall : Decimal.nearestUp (Binary.quotient m e).1 (Binary.quotient m e).2 < 2 ^ 53 := by
    rw [hnum, Decimal.nearestUp]
    apply (Nat.div_lt_iff_lt_mul (by omega)).mpr
    nlinarith
  have hcongr := Decimal.nearestUp_congr (dyadic s m e).den_pos (Binary.quotient_den_pos m e)
    (cross_mul_quotient s m e)
  have hsign := dyadic_neg_iff (s := s) hm e
  rw [value?_ofWhole _ hsmall, Exact.round_eq_signed, hcongr, Exact.signed]
  cases s with
  | negative =>
    have hbool : (Sign.negative == Sign.negative) = true := rfl
    rw [hbool, if_pos rfl, if_pos (hsign.mpr rfl)]
    push_cast
    rfl
  | positive =>
    have hbool : (Sign.positive == Sign.negative) = false := rfl
    have hnot : ¬ dyadic .positive m e < 0 := fun h => by cases hsign.mp h
    rw [hbool, if_neg (by decide), if_neg hnot]
    push_cast
    rfl

theorem value?_round {x : Float} {a : Rat} (hx : value? x = some a) :
    value? (Double.round x) = some (Exact.round a : Rat) := by
  have hvalue := hasValue_unpack hx
  unfold Double.round Binary.ofFloat
  generalize x.toModel.unpack = f at hvalue
  cases hvalue with
  | zero s ha =>
    have hround := Exact.round_intCast 0
    rw [Int.cast_zero] at hround
    dsimp only
    rw [if_pos le_rfl, hx, ha, hround]
  | @finite s m e hm canonical ha =>
    dsimp only
    split
    case isTrue he =>
      obtain ⟨n, rfl⟩ := Int.eq_ofNat_of_zero_le he
      obtain ⟨k, hk⟩ := dyadic_natCast s m n
      rw [hx, ha, hk, Exact.round_intCast]
    case isFalse he =>
      rw [ha]
      exact value?_ofWhole_nearestUp hm canonical.bound (by omega)

theorem round_infinite {x : Float} {s : Sign} (hx : x.toModel.unpack = .infinity s) :
    Double.round x = x := by
  unfold Double.round Binary.ofFloat
  rw [hx]

/-! ### Printing -/

/-- The text of a double is the text of its value, but for the sign of a negative zero. -/
theorem fixed_eq_exact {x : Float} {a : Rat} (hx : value? x = some a)
    (hzero : a = 0 → x = Scalar.zero) (places : Nat) :
    Double.fixed places x = Exact.fixed places a := by
  by_cases ha : a = 0
  · have hfloat : Binary.ofFloat (Scalar.zero : Float) = .finite false 0 0 := by decide +kernel
    rw [hzero ha, ha, Double.fixed, hfloat]
    rfl
  · have hvalue := hasValue_unpack hx
    unfold Double.fixed Binary.ofFloat
    generalize x.toModel.unpack = f at hvalue
    cases hvalue with
    | zero s h => exact absurd h ha
    | @finite s m e hm canonical h =>
      have hsign := dyadic_neg_iff (s := s) hm e
      have hcongr : Decimal.nearestEven ((Binary.quotient m e).1 * Nat.pow 10 places)
          (Binary.quotient m e).2 =
          Decimal.nearestEven (a.num.natAbs * Nat.pow 10 places) a.den := by
        apply Decimal.nearestEven_congr (Binary.quotient_den_pos m e) a.den_pos
        have hcross := cross_mul_quotient s m e
        rw [← h] at hcross
        rw [Nat.mul_right_comm, ← hcross, Nat.mul_right_comm]
      have hnegative : (s == Sign.negative) = decide (a < 0) := by
        rw [h]
        cases s
        · exact (decide_eq_true (hsign.mpr rfl)).symm
        · exact (decide_eq_false fun hneg => by cases hsign.mp hneg).symm
      dsimp only
      rw [Exact.fixed, Decimal.fixed, Decimal.fixed, hcongr, hnegative]

theorem fixed_infinite {x : Float} {s : Sign} (hx : x.toModel.unpack = .infinity s)
    (places : Nat) : Double.fixed places x = if s == .negative then "-inf" else "inf" := by
  unfold Double.fixed Binary.ofFloat
  rw [hx]

/-! ### Numerals -/

theorem Rounds.neg {x : Float} {q : Rat} (h : Rounds x q) : Rounds (-x) (-q) := by
  cases h with
  | finite hvalue near => exact .finite (value?_neg hvalue) near.neg
  | @overflow s infinite sign large =>
    have hinfinite : (-x).toModel.unpack = .infinity (-s) := by
      rw [neg_eq_pack, infinite]
      exact unpack_pack_infinity (-s)
    refine .overflow hinfinite ?_ (by rwa [abs_neg])
    rwa [factor_neg, neg_mul_neg]

/-- A numeral with a fixed number of places is read as the double nearest to it. -/
theorem rounds_ofNumeral (negative : Bool) (n : Nat) {places : Nat} (hp : places ≤ 22) :
    Rounds (ofNumeral ⟨negative, n, -places⟩) (Numeral.toRat ⟨negative, n, -places⟩) := by
  have hsize : Rounds (Float.ofScientific n (decide (-(places : Int) < 0)) (-(places : Int)).natAbs)
      (n * 10 ^ (-(places : Int))) := by
    rw [Int.natAbs_neg, Int.natAbs_natCast, zpow_neg, zpow_natCast, ← div_eq_mul_inv]
    obtain rfl | hpos := Nat.eq_zero_or_pos places
    · rw [pow_zero, div_one]
      exact rounds_ofScientific_zero n
    · rw [decide_eq_true (by omega)]
      exact rounds_ofScientific_places n hpos hp
  unfold ofNumeral Numeral.toRat
  cases negative with
  | false => exact hsize
  | true => exact hsize.neg

end BasRelief.Double
