import BasRelief.Machine.State
import BasRelief.Proofs.Number.LowerBound
import BasRelief.Proofs.Number.Thousandths

/-!
# The time of a cut

A machine whose coordinates are doubles of thousandths stays where it is, or moves by a distance
that no rounding makes small. At a feed above zero such a movement takes a time above zero: the
quotient of its distance and its feed is not below the least double.
-/

namespace BasRelief
open Double

/-! ### Distances -/

/-- A double that was read from a whole number of thousandths. -/
def IsThousandth (x : Float) : Prop :=
  ∃ (k : Int) (r : Rat), value? x = some r ∧ Nearest (k / 1000) r

structure Position.OfThousandths (p : Position Float) : Prop where
  x : IsThousandth p.x
  y : IsThousandth p.y
  z : IsThousandth p.z

theorem isThousandth_zero : IsThousandth Scalar.zero := by
  refine ⟨0, 0, value?_zero, ?_⟩
  rw [Int.cast_zero, zero_div]
  exact Nearest.zero

theorem Position.ofThousandths_origin : Position.origin.OfThousandths :=
  ⟨isThousandth_zero, isThousandth_zero, isThousandth_zero⟩

theorem IsThousandth.square {x y : Float} (hx : IsThousandth x) (hy : IsThousandth y) :
    ZeroOrAtLeast (2 ^ (-28 : Int)) ((x - y) * (x - y)) := by
  obtain ⟨k, a, ha, hnear⟩ := hx
  obtain ⟨k', b, hb, hnear'⟩ := hy
  obtain rfl | hne := eq_or_ne a b
  · exact .inl (value?_square_eq ha hb)
  · have hsquare := atLeast_square ha hb (by decide +kernel) (thousandths_apart hnear hnear' hne)
    exact .inr (hsquare.mono (by norm_num))

theorem Position.OfThousandths.distance {p q : Position Float} (hp : p.OfThousandths)
    (hq : q.OfThousandths) : ZeroOrAtLeast (2 ^ (-17 : Int)) (p.distance q) := by
  have hplane := (hq.x.square hp.x).add (by decide +kernel) (hq.y.square hp.y)
  have hheight := (hq.z.square hp.z).mono
    (show (2 : Rat) ^ (-28 : Int) / 2 ≤ 2 ^ (-28 : Int) by norm_num)
  have hsum := (hplane.add (by decide +kernel) hheight).mono
    (show 4 * (2 ^ (-16 : Int) * 2 ^ (-16 : Int)) ≤ (2 : Rat) ^ (-28 : Int) / 2 / 2 by norm_num)
  exact (hsum.root (by decide +kernel)).mono (by norm_num)

/-! ### Times -/

theorem feed_per_second {feed : Float} {f : Rat} (hfeed : value? feed = some f) (hf : 1 / 2 ≤ f) :
    ∃ w, value? (feed / Scalar.natural 60) = some w ∧ 0 < w := by
  have hsixty : value? (Scalar.natural 60 : Float) = some 60 := value?_ofNat (by decide)
  cases rounds_div hfeed hsixty (by norm_num) with
  | @finite w hvalue near =>
    have hleast : (2 : Rat) ^ (-1074 : Int) ≤ 1 / 120 := by decide +kernel
    exact ⟨w, hvalue, near.pos (by linarith)⟩
  | overflow infinite sign large =>
    have hsize := abs_le_of_value? hfeed
    rw [abs_div, abs_of_pos (show (0 : Rat) < 60 by norm_num)] at large
    have hbound : greatestValue / 60 < overflowBound := by decide +kernel
    have hquotient : |f| / 60 ≤ greatestValue / 60 :=
      div_le_div_of_nonneg_right hsize (by norm_num)
    exact absurd large (not_le.mpr (hquotient.trans_lt hbound))

theorem time_pos {p q : Position Float} {tolerance feed : Float} {b f : Rat}
    (hp : p.OfThousandths) (hq : q.OfThousandths) (htolerance : value? tolerance = some b)
    (hb : 0 ≤ b) (hmoved : Scalar.less tolerance (p.distance q) = true)
    (hfeed : value? feed = some f) (hf : 1 / 2 ≤ f) :
    Scalar.less Scalar.zero (p.distance q / (feed / Scalar.natural 60)) = true := by
  obtain ⟨w, hw, hpos⟩ := feed_per_second hfeed hf
  obtain hzero | hdistance := hp.distance hq
  · exact absurd ((less_iff htolerance hzero).mp hmoved) (not_lt.mpr hb)
  · apply hdistance.less_zero_div hw hpos
    have hsize := (le_abs_self w).trans (abs_le_of_value? hw)
    calc (2 : Rat) ^ (-1074 : Int) * w ≤ 2 ^ (-1074 : Int) * greatestValue :=
          mul_le_mul_of_nonneg_left hsize (zpow_pos two_pos _).le
      _ ≤ 2 ^ (-17 : Int) := by decide +kernel

end BasRelief
