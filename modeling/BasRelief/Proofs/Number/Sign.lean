import BasRelief.Proofs.Number.Printing

/-!
# The sign of a double

A rounded result is above zero where the exact one is, as long as that is not too small: a result in
the normal range, or one that became infinite, keeps its sign.
-/

namespace BasRelief.Double
open Float.Model Float.Model.UnpackedFloat

/-! ### Large doubles -/

def greatestValue : Rat := (2 ^ 53 - 1) * 2 ^ (971 : Int)

theorem abs_le_of_value? {x : Float} {a : Rat} (hx : value? x = some a) : |a| ≤ greatestValue := by
  have hvalue := hasValue_unpack hx
  cases hunpack : x.toModel.unpack with
  | notANumber =>
    rw [hunpack] at hvalue
    cases hvalue
  | infinity s =>
    rw [hunpack] at hvalue
    cases hvalue
  | zero s =>
    rw [hunpack] at hvalue
    cases hvalue with
    | zero s h =>
      rw [h, abs_zero]
      unfold greatestValue
      positivity
  | finite s m e hm =>
    rw [hunpack] at hvalue
    cases hvalue with
    | finite canonical h =>
      have he := (canonical_of_unpack hunpack).2
      have hmantissa : (m : Rat) ≤ 2 ^ 53 - 1 := by
        have hsucc : m + 1 ≤ 2 ^ 53 := canonical.bound
        have hcast : (m + 1 : Rat) ≤ 2 ^ 53 := mod_cast hsucc
        linarith
      have hunit : (2 : Rat) ^ e ≤ 2 ^ (971 : Int) := zpow_le_zpow_right₀ one_le_two he
      rw [h, abs_dyadic]
      exact mul_le_mul hmantissa hunit (zpow_pos two_pos e).le (by norm_num)

theorem unpack_of_value?_eq_none {x : Float} (h : value? x = none) :
    x.toModel.unpack = .notANumber ∨ ∃ s, x.toModel.unpack = .infinity s := by
  rw [value?_eq_rational?] at h
  cases hunpack : x.toModel.unpack with
  | notANumber => exact .inl rfl
  | infinity s => exact .inr ⟨s, rfl⟩
  | zero s =>
    rw [hunpack] at h
    cases h
  | finite s m e hm =>
    rw [hunpack] at h
    cases h

theorem unpack_of_pos {y : Float} {b : Rat} (hy : value? y = some b) (hb : 0 < b) :
    ∃ m e hm, y.toModel.unpack = .finite .positive m e hm := by
  have hvalue := hasValue_unpack hy
  generalize y.toModel.unpack = f at hvalue
  cases hvalue with
  | zero t h => exact absurd h hb.ne'
  | @finite t m e hm canonical h =>
    cases t with
    | positive => exact ⟨m, e, hm, rfl⟩
    | negative =>
      rw [h, dyadic_negative] at hb
      exact absurd hb (not_lt.mpr (neg_nonpos.mpr (by positivity)))

theorem unpack_div_infinite {x y : Float} {s : Sign} {b : Rat} (hx : x.toModel.unpack = .infinity s)
    (hy : value? y = some b) (hb : 0 < b) : (x / y).toModel.unpack = .infinity s := by
  obtain ⟨m, e, hm, hpositive⟩ := unpack_of_pos hy hb
  have hinfinite : UnpackedFloat.div Format.binary64 (.infinity s) (.finite .positive m e hm) =
      .infinity s := by
    cases s <;> rfl
  rw [div_eq_pack, hx, hpositive, hinfinite]
  exact unpack_pack_infinity s

theorem unpack_mul_infinite {x y : Float} {s : Sign} {b : Rat} (hx : x.toModel.unpack = .infinity s)
    (hy : value? y = some b) (hb : 0 < b) : (x * y).toModel.unpack = .infinity s := by
  obtain ⟨m, e, hm, hpositive⟩ := unpack_of_pos hy hb
  have hinfinite : UnpackedFloat.mul Format.binary64 (.infinity s) (.finite .positive m e hm) =
      .infinity s := by
    cases s <;> rfl
  rw [mul_eq_pack, hx, hpositive, hinfinite]
  exact unpack_pack_infinity s

/-! ### Positive doubles -/

theorem less_zero_infinite {x : Float} {s : Sign} (hx : x.toModel.unpack = .infinity s) :
    Scalar.less Scalar.zero x = true ↔ 0 < factor s := by
  have hzero : (Scalar.zero : Float).toModel.unpack = .zero .positive := rfl
  rw [less_eq_compare, hx, hzero]
  cases s <;> decide +kernel

/-- A rounded number has the sign of the exact one, unless that is below the least double. -/
theorem Rounds.less_zero_iff {x : Float} {q : Rat} (h : Rounds x q)
    (hq : q ≤ 0 ∨ 2 ^ (-1074 : Int) ≤ q) : Scalar.less Scalar.zero x = true ↔ 0 < q := by
  cases h with
  | @finite v hvalue near =>
    rw [less_iff value?_zero hvalue]
    obtain hle | hge := hq
    · have hv : 0 ≤ -v := near.neg.nonneg (neg_nonneg.mpr hle)
      constructor <;> intro <;> linarith
    · exact iff_of_true (near.pos hge) (lt_of_lt_of_le (zpow_pos two_pos _) hge)
  | @overflow s infinite sign large =>
    rw [less_zero_infinite infinite]
    cases s with
    | positive => simpa [factor] using sign
    | negative =>
      have hneg : q < 0 := by simpa [factor] using sign
      constructor
      · intro h
        norm_num [factor] at h
      · intro h
        linarith

theorem less_zero_ofNumeral (n : Nat) {places : Nat} (hp : places ≤ 22) :
    Scalar.less Scalar.zero (ofNumeral ⟨false, n, -places⟩) = true ↔ 0 < n := by
  have hvalue : Numeral.toRat ⟨false, n, -places⟩ = n / 10 ^ places := by
    unfold Numeral.toRat
    simp [zpow_neg, zpow_natCast, div_eq_mul_inv]
  have hrounds := rounds_ofNumeral false n hp
  rw [hvalue] at hrounds
  rw [hrounds.less_zero_iff, div_pos_iff_of_pos_right (by positivity), Nat.cast_pos]
  have hnormal := isNormal_div_pow_ten n hp
  rw [Int.cast_natCast] at hnormal
  obtain hzero | hlarge := hnormal
  · exact .inl hzero.le
  · rw [abs_of_nonneg (by positivity)] at hlarge
    have hleast : (2 : Rat) ^ (-1074 : Int) ≤ 2 ^ (-1022 : Int) :=
      zpow_le_zpow_right₀ one_le_two (by decide)
    exact .inr (hleast.trans hlarge)

end BasRelief.Double
