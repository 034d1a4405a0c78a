import BasRelief.Proofs.Gcode.DoubleWords
import BasRelief.Proofs.Number.ExactRounding

/-!
# The thousandths on a line

A coordinate that is not negative is rounded to a whole number of thousandths. Up to `2 ^ 50` of
them that number stands on the line; above, the number on the line differs from it by rounding only.
Coordinates that lie far enough apart are therefore read as different values, in their order.
-/

namespace BasRelief.Gcode
open Double

/-- The units that a thousandfold coordinate is rounded to and shown with, and the value that is
read. -/
structure ShownAs (v : Rat) (units shown : Nat) (r : Rat) : Prop where
  rounded : Exact.round v = units
  exact : units < 2 ^ 50 → shown = units
  near : |(shown - units : Rat)| ≤ units / 2 ^ 53 + 1 / 2
  value : |(shown / 1000 - r : Rat)| ≤ shown / 1000 / 2 ^ 53

theorem abs_sub_thousandth_le {n : Nat} {r : Rat} (h : Nearest (n / 1000) r) :
    |(n / 1000 - r : Rat)| ≤ n / 1000 / 2 ^ 53 := by
  have hnormal := isNormal_thousandth n
  rw [Int.cast_natCast] at hnormal
  have herror := h.abs_sub_le hnormal
  rwa [abs_of_nonneg (by positivity : (0 : Rat) ≤ n / 1000)] at herror

theorem unitsOf_of_nonneg {t : Rat} (ht : 0 ≤ t) :
    unitsOf 3 t = (Decimal.nearestEven (t.num.natAbs * 10 ^ 3) t.den : Nat) := by
  rw [unitsOf, Exact.signed, if_neg (not_lt.mpr ht)]

theorem thousandfold_eq_div {t : Rat} (ht : 0 ≤ t) :
    ((t.num.natAbs * 10 ^ 3 : Nat) / t.den : Rat) = t * 10 ^ 3 := by
  have hsize := Exact.abs_eq_div t
  rw [abs_of_nonneg ht] at hsize
  conv_rhs => rw [hsize, div_mul_eq_mul_div]
  push_cast
  rfl

theorem exists_shownAs {x : Float} {v : Rat} (hv : value? (x * Scalar.natural 1000) = some v)
    (hv0 : 0 ≤ v) :
    ∃ (w : Float) (units shown : Nat) (r : Rat), readBack 3 (thousandths x) = some w ∧
      value? w = some r ∧ ShownAs v units shown r := by
  obtain ⟨t, ht⟩ := thousandths_finite hv
  have hunits := Exact.round_of_nonneg hv0
  generalize Decimal.nearestUp v.num.natAbs v.den = units at hunits
  have hnear := ht.near
  rw [hunits] at hnear
  have ht0 : 0 ≤ t := hnear.nonneg (by positivity)
  have herror := abs_sub_thousandth_le hnear
  have hthousand : |(t * 10 ^ 3 - units : Rat)| ≤ units / 2 ^ 53 := by
    obtain ⟨hlow, hhigh⟩ := abs_le.mp herror
    rw [abs_le]
    constructor <;> linarith
  obtain ⟨r, hr, hread⟩ := value?_numeralOf ht.bound
  have hhalf : |t * 10 ^ 3 - unitsOf 3 t| ≤ 1 / 2 := Exact.abs_sub_scaled_le t 3
  rw [unitsOf_of_nonneg ht0, Int.cast_natCast] at hread hhalf
  refine ⟨_, units, _, r, readBack_finite ht.value ht.unsigned 3, hr, hunits, ?exact, ?near,
    abs_sub_thousandth_le hread⟩
  case exact =>
    intro hsmall
    have hcast : (units : Rat) < 2 ^ 50 := mod_cast hsmall
    apply Decimal.nearestEven_eq_of_abs_lt t.den_pos
    rw [thousandfold_eq_div ht0]
    exact lt_of_le_of_lt hthousand (by linarith)
  case near =>
    rw [abs_sub_comm] at hhalf
    have htriangle := abs_sub_le
      ((Decimal.nearestEven (t.num.natAbs * 10 ^ 3) t.den : Nat) : Rat) (t * 10 ^ 3) units
    exact htriangle.trans ((add_le_add hhalf hthousand).trans_eq (add_comm _ _))

namespace ShownAs
variable {v v' r r' : Rat} {k k' n n' : Nat}

theorem lt_of_units_lt (h : ShownAs v k n r) (h' : ShownAs v' k' n' r') (hunits : k < k')
    (hsmall : k' < 2 ^ 50) : r < r' := by
  have hvalue := h.value
  have hvalue' := h'.value
  rw [h.exact (hunits.trans hsmall)] at hvalue
  rw [h'.exact hsmall] at hvalue'
  have hstep : (k + 1 : Rat) ≤ k' := mod_cast hunits
  have hbound : (k' : Rat) < 2 ^ 50 := mod_cast hsmall
  have hlow := (abs_le.mp hvalue).1
  have hhigh := (abs_le.mp hvalue').2
  linarith

/-- Large coordinates keep a gap that is not too small a part of them. -/
theorem lt_of_apart (h : ShownAs v k n r) (h' : ShownAs v' k' n' r')
    (hgap : v' ≤ 2 ^ 43 * (v' - v)) (hlarge : 2 ^ 50 ≤ k') : r < r' := by
  have hunits := Exact.abs_sub_round_le v
  have hunits' := Exact.abs_sub_round_le v'
  rw [h.rounded] at hunits
  rw [h'.rounded] at hunits'
  have hcast : (2 : Rat) ^ 50 ≤ k' := mod_cast hlarge
  obtain ⟨hlow, hhigh⟩ := abs_le.mp hunits
  obtain ⟨hlow', hhigh'⟩ := abs_le.mp hunits'
  have hshown := (abs_le.mp h.near).2
  have hshown' := (abs_le.mp h'.near).1
  have hvalue := (abs_le.mp h.value).1
  have hvalue' := (abs_le.mp h'.value).2
  linarith

end ShownAs
end BasRelief.Gcode
