import BasRelief.Proofs.Number.Identity
import BasRelief.Proofs.Number.Overflow
import Mathlib.Order.WithBot

/-!
# The line of numbers

Doubles that are numbers stand on the line of fractions with an end on either side, and the
comparisons of the program are those of the line. So they order numbers as exact arithmetic orders
fractions, infinities included. A sum of numbers may start from zero or from its first number.
-/

namespace BasRelief

/-! ### Comparisons that order -/

namespace Scalar

/-- Equal as numbers, or the same for what is not a number. -/
def SameNumber {α : Type} [Scalar α] (a b : α) : Prop := a = b ∨ equal a b = true

/-- Comparisons by which all numbers stand in a row, several of them at one place perhaps, and
sums to which a zero adds nothing. -/
class Lawful (α : Type) [Scalar α] : Prop where
  atMost_refl {a : α} : isNumber a = true → atMost a a = true
  atMost_trans {a b c : α} : atMost a b = true → atMost b c = true → atMost a c = true
  atMost_of_less {a b : α} : less a b = true → atMost a b = true
  atMost_of_not_less {a b : α} :
    isNumber a = true → isNumber b = true → less a b = false → atMost b a = true
  zero_add {a : α} : isNumber a = true → SameNumber (zero + a) a
  add_right {a b c : α} : isNumber c = true → SameNumber a b → SameNumber (a + c) (b + c)

variable {α : Type} [Scalar α] [Lawful α] {a b : α}

theorem le_maximum (ha : isNumber a = true) (hb : isNumber b = true) :
    atMost a (maximum a b) = true ∧ atMost b (maximum a b) = true := by
  rw [maximum, hb, Bool.not_true, if_neg Bool.false_ne_true]
  cases h : less b a with
  | true => exact ⟨Lawful.atMost_refl ha, Lawful.atMost_of_less h⟩
  | false => exact ⟨Lawful.atMost_of_not_less hb ha h, Lawful.atMost_refl hb⟩

theorem minimum_le (ha : isNumber a = true) (hb : isNumber b = true) :
    atMost (minimum a b) a = true ∧ atMost (minimum a b) b = true := by
  rw [minimum, hb, Bool.not_true, if_neg Bool.false_ne_true]
  cases h : less a b with
  | true => exact ⟨Lawful.atMost_refl ha, Lawful.atMost_of_less h⟩
  | false => exact ⟨Lawful.atMost_of_not_less ha hb h, Lawful.atMost_refl hb⟩

end Scalar

theorem Exact.eq_of_sameNumber {a b : Rat} (h : Scalar.SameNumber a b) : a = b := by
  obtain rfl | h := h
  · rfl
  · obtain ⟨hle, hge⟩ := Bool.and_eq_true_iff.mp h
    exact le_antisymm (of_decide_eq_true hle) (of_decide_eq_true hge)

instance : Scalar.Lawful Rat where
  atMost_refl _ := decide_eq_true le_rfl
  atMost_trans h h' := decide_eq_true ((of_decide_eq_true h).trans (of_decide_eq_true h'))
  atMost_of_less h := decide_eq_true (of_decide_eq_true h).le
  atMost_of_not_less _ _ h := decide_eq_true (not_lt.mp (of_decide_eq_false h))
  zero_add {a} _ := .inl (zero_add a)
  add_right {_ _ c} _ h := .inl (congrArg (· + c) (Exact.eq_of_sameNumber h))

namespace Double
open Float.Model Float.Model.UnpackedFloat

/-! ### Places -/

/-- Where a double stands; what is not a number is put at the upper end. -/
def place (x : Float) : WithBot (WithTop Rat) :=
  match x.toModel.unpack with
  | .infinity .negative => ⊥
  | .infinity .positive | .notANumber => ⊤
  | .zero _ => ((0 : Rat) : WithTop Rat)
  | .finite s m e _ => (dyadic s m e : WithTop Rat)

variable {x y : Float}

theorem place_of_value? {a : Rat} (hx : value? x = some a) : place x = (a : WithTop Rat) := by
  have hvalue := hasValue_unpack hx
  unfold place
  generalize x.toModel.unpack = f at hvalue
  cases hvalue with
  | zero s h => rw [h]
  | finite canonical h => rw [h]

theorem infinite_or_value (hx : Scalar.isNumber x = true) :
    (∃ s, x.toModel.unpack = .infinity s) ∨ ∃ a, value? x = some a := by
  cases hvalue : value? x with
  | some a => exact .inr ⟨a, rfl⟩
  | none => exact .inl ((unpack_of_value?_eq_none hvalue).resolve_left ((isNumber_iff x).mp hx))

theorem isNumber_of_infinite {s : Sign} (hx : x.toModel.unpack = .infinity s) :
    Scalar.isNumber x = true := by
  rw [isNumber_iff, hx]
  exact UnpackedFloat.noConfusion

theorem compare_coe (a b : Rat) :
    compare ((a : WithTop Rat) : WithBot (WithTop Rat)) (b : WithTop Rat) = compare a b := by
  obtain hlt | rfl | hgt := lt_trichotomy a b
  · rw [compare_lt_iff_lt.mpr hlt, compare_lt_iff_lt.mpr (by exact_mod_cast hlt)]
  · rw [compare_eq_iff_eq.mpr rfl, compare_eq_iff_eq.mpr rfl]
  · rw [compare_gt_iff_gt.mpr hgt, compare_gt_iff_gt.mpr (by exact_mod_cast hgt)]

theorem compare_place (hx : Scalar.isNumber x = true) (hy : Scalar.isNumber y = true) :
    x.toModel.unpack.compare y.toModel.unpack = some (compare (place x) (place y)) := by
  obtain ⟨s, hs⟩ | ⟨a, ha⟩ := infinite_or_value hx
  · obtain ⟨t, ht⟩ | ⟨b, hb⟩ := infinite_or_value hy
    · rw [place, place, hs, ht]
      cases s <;> cases t <;> rfl
    · have hvalue := hasValue_unpack hb
      rw [place_of_value? hb, place, hs]
      generalize y.toModel.unpack = g at hvalue
      cases s <;> cases hvalue <;> rfl
  · obtain ⟨t, ht⟩ | ⟨b, hb⟩ := infinite_or_value hy
    · have hvalue := hasValue_unpack ha
      rw [place_of_value? ha, place, ht]
      generalize x.toModel.unpack = f at hvalue
      cases t <;> cases hvalue <;> rfl
    · rw [compare_hasValue (hasValue_unpack ha) (hasValue_unpack hb), place_of_value? ha,
        place_of_value? hb, compare_coe]

theorem less_iff_place (hx : Scalar.isNumber x = true) (hy : Scalar.isNumber y = true) :
    Scalar.less x y = true ↔ place x < place y := by
  rw [less_eq_compare, compare_place hx hy, ← compare_lt_iff_lt]
  cases compare (place x) (place y) <;> decide

theorem atMost_iff_place (hx : Scalar.isNumber x = true) (hy : Scalar.isNumber y = true) :
    Scalar.atMost x y = true ↔ place x ≤ place y := by
  rw [atMost_eq_compare, compare_place hx hy, ← compare_le_iff_le]
  cases compare (place x) (place y) <;> decide

theorem atMost_eq_not_less (hx : Scalar.isNumber x = true) (hy : Scalar.isNumber y = true) :
    Scalar.atMost x y = !Scalar.less y x := by
  rw [Bool.eq_iff_iff, atMost_iff_place hx hy, Bool.not_eq_true', ← Bool.not_eq_true,
    less_iff_place hy hx, not_lt]

theorem equal_iff_place (hx : Scalar.isNumber x = true) (hy : Scalar.isNumber y = true) :
    Scalar.equal x y = true ↔ place x = place y := by
  rw [Scalar.equal, Bool.and_eq_true, atMost_iff_place hx hy, atMost_iff_place hy hx,
    ← le_antisymm_iff]

/-! ### What is not a number -/

theorem isNumber_of_compare {o : Ordering}
    (h : x.toModel.unpack.compare y.toModel.unpack = some o) :
    Scalar.isNumber x = true ∧ Scalar.isNumber y = true := by
  rw [isNumber_iff, isNumber_iff]
  constructor
  · intro hx
    rw [hx] at h
    cases h
  · intro hy
    rw [hy] at h
    generalize x.toModel.unpack = f at h
    cases f <;> cases h

theorem isNumber_of_less (h : Scalar.less x y = true) :
    Scalar.isNumber x = true ∧ Scalar.isNumber y = true := by
  rw [less_eq_compare, beq_iff_eq] at h
  exact isNumber_of_compare h

theorem isNumber_of_atMost (h : Scalar.atMost x y = true) :
    Scalar.isNumber x = true ∧ Scalar.isNumber y = true := by
  rw [atMost_eq_compare, Option.any_eq_true] at h
  obtain ⟨o, ho, _⟩ := h
  exact isNumber_of_compare ho

theorem exists_value?_of_between {z : Float} {a b : Rat} (hx : value? x = some a)
    (hz : value? z = some b) (hlow : Scalar.atMost x y = true)
    (hhigh : Scalar.atMost y z = true) : ∃ v, value? y = some v ∧ a ≤ v ∧ v ≤ b := by
  obtain ⟨hxn, hyn⟩ := isNumber_of_atMost hlow
  obtain ⟨s, hs⟩ | ⟨v, hv⟩ := infinite_or_value hyn
  · have hzn := (isNumber_of_atMost hhigh).2
    rw [atMost_iff_place hxn hyn, place_of_value? hx, place, hs] at hlow
    rw [atMost_iff_place hyn hzn, place_of_value? hz, place, hs] at hhigh
    cases s with
    | negative => exact absurd (le_bot_iff.mp hlow) WithBot.coe_ne_bot
    | positive => exact absurd (WithBot.coe_le_coe.mp hhigh) (not_le_of_gt (WithTop.coe_lt_top b))
  · exact ⟨v, hv, (atMost_iff hx hv).mp hlow, (atMost_iff hv hz).mp hhigh⟩

/-! ### Sums that start from zero -/

theorem value?_zero_add {b : Rat} (hx : value? x = some 0) (hy : value? y = some b) :
    value? (x + y) = some b := by
  have hnear := Nearest.of_value hy
  have hrounds := rounds_add hx hy
  rw [zero_add] at hrounds
  obtain ⟨v, hv, hnear'⟩ :=
    hrounds.exists_nearest (hnear.lt_overflowBound (abs_le_of_value? hy))
  rw [hv, hnear'.unique hnear]

theorem unpack_zero_add_infinite {s : Sign} (hx : value? x = some 0)
    (hy : y.toModel.unpack = .infinity s) : x + y = .ofModel (.pack (.infinity s)) := by
  have hvalue := hasValue_unpack hx
  rw [add_eq_pack, hy]
  generalize x.toModel.unpack = f at hvalue
  cases hvalue <;> rfl

/-- Numbers that are equal are one double, unless they are the two zeros. -/
theorem unpack_eq_or_zero (h : Scalar.equal x y = true) :
    x.toModel.unpack = y.toModel.unpack ∨ (value? x = some 0 ∧ value? y = some 0) := by
  obtain ⟨hx, hy⟩ := isNumber_of_atMost (Bool.and_eq_true_iff.mp h).1
  have hplace := (equal_iff_place hx hy).mp h
  obtain ⟨s, hs⟩ | ⟨a, ha⟩ := infinite_or_value hx
  · obtain ⟨t, ht⟩ | ⟨b, hb⟩ := infinite_or_value hy
    · rw [place, place, hs, ht] at hplace
      cases s <;> cases t <;> first | exact .inl (hs.trans ht.symm) | cases hplace
    · rw [place_of_value? hb, place, hs] at hplace
      cases s <;> cases hplace
  · obtain ⟨t, ht⟩ | ⟨b, hb⟩ := infinite_or_value hy
    · rw [place_of_value? ha, place, ht] at hplace
      cases t <;> cases hplace
    · obtain rfl : a = b := (equal_iff ha hb).mp h
      obtain rfl | hne := eq_or_ne a 0
      · exact .inr ⟨ha, hb⟩
      · exact .inl (congrArg (·.toModel.unpack) (eq_of_value? ha hb hne))

theorem sameNumber_zero_add (hx : Scalar.isNumber x = true) :
    Scalar.SameNumber (Scalar.zero + x) x := by
  obtain ⟨s, hs⟩ | ⟨a, ha⟩ := infinite_or_value hx
  · have hsum : (Scalar.zero + x).toModel.unpack = .infinity s := by
      rw [unpack_zero_add_infinite value?_zero hs]
      exact unpack_pack_infinity s
    refine .inr ((equal_iff_place (isNumber_of_infinite hsum) hx).mpr ?_)
    rw [place, place, hsum, hs]
  · exact .inr ((equal_iff (value?_zero_add value?_zero ha) ha).mpr rfl)

theorem sameNumber_add_right {z : Float} (hz : Scalar.isNumber z = true)
    (h : Scalar.SameNumber x y) : Scalar.SameNumber (x + z) (y + z) := by
  obtain rfl | h := h
  · exact .inl rfl
  obtain hunpack | ⟨hx, hy⟩ := unpack_eq_or_zero h
  · left
    rw [add_eq_pack, add_eq_pack, hunpack]
  · obtain ⟨s, hs⟩ | ⟨a, ha⟩ := infinite_or_value hz
    · left
      rw [unpack_zero_add_infinite hx hs, unpack_zero_add_infinite hy hs]
    · exact .inr ((equal_iff (value?_zero_add hx ha) (value?_zero_add hy ha)).mpr rfl)

end Double

instance : Scalar.Lawful Float where
  atMost_refl h := (Double.atMost_iff_place h h).mpr le_rfl
  atMost_trans h h' := by
    obtain ⟨ha, hb⟩ := Double.isNumber_of_atMost h
    obtain ⟨_, hc⟩ := Double.isNumber_of_atMost h'
    rw [Double.atMost_iff_place ha hb] at h
    rw [Double.atMost_iff_place hb hc] at h'
    exact (Double.atMost_iff_place ha hc).mpr (h.trans h')
  atMost_of_less h := by
    obtain ⟨ha, hb⟩ := Double.isNumber_of_less h
    exact (Double.atMost_iff_place ha hb).mpr ((Double.less_iff_place ha hb).mp h).le
  atMost_of_not_less ha hb h := by
    rw [Double.atMost_iff_place hb ha]
    refine not_lt.mp fun hlt => ?_
    rw [(Double.less_iff_place ha hb).mpr hlt] at h
    cases h
  zero_add := Double.sameNumber_zero_add
  add_right := Double.sameNumber_add_right

end BasRelief
