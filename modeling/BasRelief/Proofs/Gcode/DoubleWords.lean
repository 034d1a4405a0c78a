import BasRelief.Proofs.Gcode.WordValues
import BasRelief.Proofs.Number.Sign
import BasRelief.Proofs.Number.Thousandths

/-!
# The words of a move in doubles

A coordinate is multiplied by a thousand, rounded to a whole number and divided again; its text is
rounded to the thousandth once more and read as the nearest double. Each of these steps rounds, so
what is read back is known by its distance to the fraction that the step before it stands for. What
is too large for the product has a text without a value.
-/

namespace BasRelief

namespace Gcode
open Double Float.Model Float.Model.UnpackedFloat

/-! ### Texts -/

/-- The numeral that a fraction is printed as. -/
def numeralOf (places : Nat) (a : Rat) : Numeral :=
  ⟨decide (a < 0), Decimal.nearestEven (a.num.natAbs * 10 ^ places) a.den, -places⟩

/-- The units of the last place that a fraction is printed with. -/
def unitsOf (places : Nat) (a : Rat) : Int :=
  Exact.signed a (Decimal.nearestEven (a.num.natAbs * 10 ^ places) a.den)

theorem readBack_finite {x : Float} {a : Rat} (hx : value? x = some a)
    (hzero : a = 0 → x = Scalar.zero) (places : Nat) :
    readBack places x = some (ofNumeral (numeralOf places a)) := by
  have htext : Scalar.fixed places x = Exact.fixed places a := fixed_eq_exact hx hzero places
  rw [readBack, htext, Exact.fixed, String.toList_ofList, Decimal.fixed,
    Numeral.read?_signed_placed]
  rfl

theorem readBack_infinite {x : Float} {s : Sign} (hx : x.toModel.unpack = .infinity s)
    (places : Nat) : readBack places x = none := by
  have htext : Scalar.fixed places x = if s == .negative then "-inf" else "inf" :=
    fixed_infinite hx places
  rw [readBack, htext]
  cases s <;> rfl

/-! ### Coordinates -/

theorem value?_thousand : value? (Scalar.natural 1000 : Float) = some 1000 :=
  value?_ofNat (by decide)

/-- Above the thousandth part of every double. -/
def coordinateBound : Rat := 2 ^ (1016 : Int)

theorem lt_coordinateBound {q t : Rat} (h : Nearest q t) (hq : |q| ≤ greatestValue / 1000) :
    |t| < coordinateBound := by
  have hunit : greatestValue / 1000 < 2 ^ (1016 : Int) - 2 ^ (963 : Int) / 2 := by
    decide +kernel
  unfold coordinateBound
  exact h.lt_of_lt_sub (t := 963) (by decide) (by decide) (hq.trans_lt hunit)

/-- What a coordinate is rounded to; zero has no sign. -/
structure RoundedCoordinate (v t : Rat) (y : Float) : Prop where
  value : value? y = some t
  near : Nearest (Exact.round v / 1000) t
  unsigned : t = 0 → y = Scalar.zero
  bound : |t| < coordinateBound

theorem thousandths_finite {x : Float} {v : Rat}
    (hv : value? (x * Scalar.natural 1000) = some v) :
    ∃ t, RoundedCoordinate v t (thousandths x) := by
  have hround : value? (Scalar.round (x * Scalar.natural 1000)) = some (Exact.round v : Rat) :=
    value?_round hv
  have hsize : |Exact.round v / 1000| ≤ greatestValue / 1000 := by
    rw [abs_div, abs_of_pos (show (0 : Rat) < 1000 by norm_num)]
    exact div_le_div_of_nonneg_right (abs_le_of_value? hround) (by norm_num)
  unfold thousandths
  cases rounds_div hround value?_thousand (by decide) with
  | @finite t hvalue near =>
    have hbound := lt_coordinateBound near hsize
    refine ⟨t, ?_⟩
    dsimp only
    split
    case isTrue hequal =>
      obtain rfl := (equal_iff hvalue value?_zero).mp hequal
      exact ⟨value?_zero, near, fun _ => rfl, hbound⟩
    case isFalse hne =>
      refine ⟨hvalue, near, fun ht => absurd ?_ hne, hbound⟩
      subst ht
      exact (equal_iff hvalue value?_zero).mpr rfl
  | overflow infinite sign large =>
    have hsmall : greatestValue / 1000 < overflowBound := by decide +kernel
    exact absurd large (not_le.mpr (hsize.trans_lt hsmall))

theorem thousandths_infinite {x : Float} {s : Sign}
    (h : (x * Scalar.natural 1000).toModel.unpack = .infinity s) :
    (thousandths x).toModel.unpack = .infinity s := by
  have hround : Scalar.round (x * Scalar.natural 1000) = x * Scalar.natural 1000 :=
    round_infinite h
  have hquotient :
      (x * Scalar.natural 1000 / Scalar.natural 1000).toModel.unpack = .infinity s :=
    unpack_div_infinite h value?_thousand (by norm_num)
  have hnot : Scalar.equal (x * Scalar.natural 1000 / Scalar.natural 1000) Scalar.zero = false := by
    have hzero : (Scalar.zero : Float).toModel.unpack = .zero .positive := rfl
    rw [Scalar.equal, atMost_eq_compare, atMost_eq_compare, hquotient, hzero]
    cases s <;> rfl
  unfold thousandths
  dsimp only
  rw [hround, hnot]
  exact hquotient

theorem readBack_thousandths_notANumber {x : Float}
    (h : (x * Scalar.natural 1000).toModel.unpack = .notANumber) :
    readBack 3 (thousandths x) = none := by
  have hround : Scalar.round (x * Scalar.natural 1000) = x * Scalar.natural 1000 := by
    show Double.round _ = _
    unfold Double.round Binary.ofFloat
    rw [h]
  have hquotient :
      (x * Scalar.natural 1000 / Scalar.natural 1000).toModel.unpack = .notANumber := by
    rw [div_eq_pack, h]
    exact unpack_pack_notANumber
  have hnot : Scalar.equal (x * Scalar.natural 1000 / Scalar.natural 1000) Scalar.zero = false := by
    rw [Scalar.equal, atMost_eq_compare, hquotient]
    rfl
  unfold thousandths
  dsimp only
  rw [hround, hnot]
  show (Numeral.read? (Double.fixed 3 (x * Scalar.natural 1000 / Scalar.natural 1000)).toList).map _
    = none
  unfold Double.fixed Binary.ofFloat
  rw [hquotient]
  rfl

theorem rounds_numeralOf (a : Rat) {places : Nat} (hp : places ≤ 22) :
    Rounds (ofNumeral (numeralOf places a)) (unitsOf places a / 10 ^ places) := by
  have hvalue : Numeral.toRat (numeralOf places a) = unitsOf places a / 10 ^ places := by
    unfold Numeral.toRat numeralOf unitsOf Exact.signed
    by_cases h : a < 0 <;> simp [h, zpow_neg, div_eq_mul_inv]
  have hrounds := rounds_ofNumeral (decide (a < 0))
    (Decimal.nearestEven (a.num.natAbs * 10 ^ places) a.den) hp
  rw [← hvalue]
  exact hrounds

theorem value?_numeralOf {t : Rat} (h : |t| < coordinateBound) :
    ∃ r, value? (ofNumeral (numeralOf 3 t)) = some r ∧ Nearest (unitsOf 3 t / 1000) r := by
  have hrounds := rounds_numeralOf t (show 3 ≤ 22 by decide)
  have hthousand : (10 : Rat) ^ 3 = 1000 := by norm_num
  rw [hthousand] at hrounds
  cases hrounds with
  | @finite r hvalue near => exact ⟨r, hvalue, near⟩
  | overflow infinite sign large =>
    have hunits : |t * 10 ^ 3 - unitsOf 3 t| ≤ 1 / 2 := Exact.abs_sub_scaled_le t 3
    have hsmall : |(unitsOf 3 t / 1000 : Rat)| < coordinateBound + 1 := by
      obtain ⟨hlow, hhigh⟩ := abs_le.mp hunits
      obtain ⟨hlow', hhigh'⟩ := abs_lt.mp h
      rw [abs_lt]
      constructor <;> linarith
    have hbound : coordinateBound + 1 ≤ overflowBound := by decide +kernel
    exact absurd large (not_le.mpr (hsmall.trans_le hbound))

/-- The value of a coordinate word is the double nearest to a whole number of thousandths. -/
theorem value?_of_readBack {x w : Float} (h : readBack 3 (thousandths x) = some w) :
    ∃ (k : Int) (r : Rat), value? w = some r ∧ Nearest (k / 1000) r := by
  cases hv : value? (x * Scalar.natural 1000) with
  | none =>
    obtain hunpack | ⟨s, hunpack⟩ := unpack_of_value?_eq_none hv
    · rw [readBack_thousandths_notANumber hunpack] at h
      cases h
    · rw [readBack_infinite (thousandths_infinite hunpack)] at h
      cases h
  | some v =>
    obtain ⟨t, ht⟩ := thousandths_finite hv
    rw [readBack_finite ht.value ht.unsigned] at h
    obtain rfl := Option.some.inj h
    obtain ⟨r, hvalue, near⟩ := value?_numeralOf ht.bound
    exact ⟨_, r, hvalue, near⟩

/-! ### Values that are not printed as zero -/

theorem value?_half : value? (0.5 : Float) = some (1 / 2) := by
  decide +kernel

theorem less_zero_numeralOf {a : Rat} (ha : 0 ≤ a) {places : Nat} (hp : places ≤ 22) :
    Scalar.less Scalar.zero (ofNumeral (numeralOf places a)) = true ↔ 1 / 2 < a * 10 ^ places := by
  have hsign : decide (a < 0) = false := decide_eq_false (not_lt.mpr ha)
  rw [numeralOf, hsign, less_zero_ofNumeral _ hp, Exact.nearestEven_pos_iff_lt, abs_of_nonneg ha]

theorem value?_numeralOf_zero {x : Float} {a : Rat} (hx : value? x = some a) :
    ∃ r, value? (ofNumeral (numeralOf 0 a)) = some r ∧ Nearest (unitsOf 0 a) r := by
  have hrounds := rounds_numeralOf a (show 0 ≤ 22 by decide)
  rw [pow_zero, div_one] at hrounds
  cases hrounds with
  | @finite r hvalue near => exact ⟨r, hvalue, near⟩
  | overflow infinite sign large =>
    have hunits : |a * 10 ^ 0 - unitsOf 0 a| ≤ 1 / 2 := Exact.abs_sub_scaled_le a 0
    rw [pow_zero, mul_one] at hunits
    have hsize : |(unitsOf 0 a : Rat)| ≤ |a| + 1 / 2 := by
      have htriangle := abs_sub_abs_le_abs_sub (unitsOf 0 a : Rat) a
      rw [abs_sub_comm] at htriangle
      linarith
    have hbound : greatestValue + 1 / 2 < overflowBound := by decide +kernel
    have hlarge := large.trans (hsize.trans (add_le_add_left (abs_le_of_value? hx) _))
    exact absurd hlarge (not_le.mpr hbound)

/-- A feed is printed above zero from a half on, the half excluded; what is read is then not below
a half. -/
theorem readBack_feed_pos {x : Float} (hx : Scalar.isPositive x = true) :
    ∃ f r, readBack 0 x = some f ∧ value? f = some r ∧
      (Scalar.less Scalar.zero f = true ↔ Scalar.less 0.5 x = true) ∧
      (Scalar.less 0.5 x = true → 1 / 2 ≤ r) := by
  obtain ⟨a, ha, hpos⟩ := (isPositive_iff x).mp hx
  obtain ⟨r, hr, hnear⟩ := value?_numeralOf_zero ha
  refine ⟨_, r, readBack_finite ha (fun h => absurd h hpos.ne') 0, hr, ?_, ?_⟩
  · rw [less_zero_numeralOf hpos.le (by decide), less_iff value?_half ha, pow_zero, mul_one]
  · rw [less_iff value?_half ha]
    intro hhalf
    have hunits : (1 : Rat) ≤ unitsOf 0 a := by
      have hcount := (Exact.nearestEven_pos_iff_lt a 0).mpr (by
        rwa [abs_of_pos hpos, pow_zero, mul_one])
      rw [unitsOf, Exact.signed, if_neg (not_lt.mpr hpos.le)]
      exact_mod_cast hcount
    have hnormal := @isNormal_div_pow_ten (unitsOf 0 a) 0 (by decide)
    rw [pow_zero, div_one] at hnormal
    have herror := hnear.abs_sub_le hnormal
    rw [abs_of_nonneg (show (0 : Rat) ≤ unitsOf 0 a by linarith)] at herror
    have hlow := (abs_le.mp herror).2
    linarith

/-- A coordinate is printed above zero from half a thousandth on, the half included, unless it is
too large to be counted in thousandths. -/
theorem readBack_thousandths_pos {x : Float} (hx : Scalar.isPositive x = true) :
    (∃ z, readBack 3 (thousandths x) = some z ∧ Scalar.less Scalar.zero z = true) ↔
      Scalar.isFinite (x * Scalar.natural 1000) = true ∧
        Scalar.atMost 0.5 (x * Scalar.natural 1000) = true := by
  obtain ⟨a, ha, hpos⟩ := (isPositive_iff x).mp hx
  cases rounds_mul ha value?_thousand with
  | @finite v hv near =>
    have hv0 : 0 ≤ v := near.nonneg (by positivity)
    obtain ⟨t, ht⟩ := thousandths_finite hv
    have hnear := ht.near
    have hfinite : Scalar.isFinite (x * Scalar.natural 1000) = true := (isFinite_iff _).mpr ⟨v, hv⟩
    have hround : (0 : Rat) ≤ Exact.round v := by
      rw [Exact.round_of_nonneg hv0]
      positivity
    have ht0 : 0 ≤ t := hnear.nonneg (by positivity)
    have hunits : 1 ≤ Exact.round v ↔ 1 / 2 < t * 10 ^ 3 := by
      rw [Exact.round_of_nonneg hv0] at hnear ⊢
      have herror := hnear.abs_sub_le (isNormal_thousandth (Decimal.nearestUp v.num.natAbs v.den))
      rw [abs_of_nonneg (by positivity : (0 : Rat) ≤ _ / 1000)] at herror
      obtain ⟨hlow, hhigh⟩ := abs_le.mp herror
      obtain hzero | hone := Nat.eq_zero_or_pos (Decimal.nearestUp v.num.natAbs v.den)
      · rw [hzero, Nat.cast_zero] at hlow hhigh ⊢
        constructor <;> intro <;> linarith
      · have hcast : (1 : Rat) ≤ Decimal.nearestUp v.num.natAbs v.den := mod_cast hone
        constructor <;> intro <;> linarith
    rw [readBack_finite ht.value ht.unsigned, atMost_iff value?_half hv,
      ← Exact.one_le_round_iff hv0, hunits, ← less_zero_numeralOf ht0 (by decide)]
    simp [hfinite]
  | overflow infinite sign large =>
    have hnot : Scalar.isFinite (x * Scalar.natural 1000) = false := by
      show (x * Scalar.natural 1000).toModel.unpack.isFinite = false
      rw [infinite]
      rfl
    rw [readBack_infinite (thousandths_infinite infinite), hnot]
    simp

end Gcode
end BasRelief
