import BasRelief.Proofs.Number.Whole
import BasRelief.Scalar

/-!
# The order of doubles

Doubles with a value are ordered as their values are. The comparison looks at the exponents before
the mantissas, which agrees with the values because the pairs are canonical.
-/

namespace BasRelief.Double
open Float.Model Float.Model.UnpackedFloat

/-! ### Canonical pairs -/

theorem lt_of_exponent_lt {m₁ m₂ : Nat} {e₁ e₂ : Int} (h₁ : Canonical m₁ e₁)
    (h₂ : Canonical m₂ e₂) (h : e₁ < e₂) : (m₁ * 2 ^ e₁ : Rat) < m₂ * 2 ^ e₂ := by
  have hfull : 2 ^ 52 ≤ m₂ := by
    obtain hfull | hleast := h₂.full
    · exact hfull
    · have := h₁.least
      omega
  have hpos : (0 : Rat) < 2 ^ e₁ := zpow_pos two_pos e₁
  calc (m₁ * 2 ^ e₁ : Rat) < 2 ^ 53 * 2 ^ e₁ :=
        mul_lt_mul_of_pos_right (mod_cast h₁.bound) hpos
    _ = 2 ^ 52 * 2 ^ (e₁ + 1) := by
        rw [zpow_add_one₀ two_ne_zero]
        ring
    _ ≤ m₂ * 2 ^ e₂ := by
        gcongr
        · exact_mod_cast hfull
        · exact one_le_two
        · omega

theorem compare_canonical {m₁ m₂ : Nat} {e₁ e₂ : Int} (h₁ : Canonical m₁ e₁)
    (h₂ : Canonical m₂ e₂) :
    (compare e₁ e₂).then (compare m₁ m₂) = compare (m₁ * 2 ^ e₁ : Rat) (m₂ * 2 ^ e₂) := by
  obtain hlt | rfl | hgt := lt_trichotomy e₁ e₂
  · have hvalue := lt_of_exponent_lt h₁ h₂ hlt
    rw [compare_lt_iff_lt.mpr hlt, compare_lt_iff_lt.mpr hvalue]
    rfl
  · have hpos : (0 : Rat) < 2 ^ e₁ := zpow_pos two_pos e₁
    rw [compare_eq_iff_eq.mpr rfl, Ordering.eq_then]
    obtain hlt | rfl | hgt := lt_trichotomy m₁ m₂
    · rw [compare_lt_iff_lt.mpr hlt, compare_lt_iff_lt.mpr
        (mul_lt_mul_of_pos_right (Nat.cast_lt.mpr hlt) hpos)]
    · rw [compare_eq_iff_eq.mpr rfl, compare_eq_iff_eq.mpr rfl]
    · rw [compare_gt_iff_gt.mpr hgt, compare_gt_iff_gt.mpr
        (mul_lt_mul_of_pos_right (Nat.cast_lt.mpr hgt) hpos)]
  · have hvalue := lt_of_exponent_lt h₂ h₁ hgt
    rw [compare_gt_iff_gt.mpr hgt, compare_gt_iff_gt.mpr hvalue]
    rfl

theorem compare_swap_neg (a b : Rat) : (compare a b).swap = compare (-a) (-b) := by
  obtain hlt | rfl | hgt := lt_trichotomy a b
  · rw [compare_lt_iff_lt.mpr hlt, compare_gt_iff_gt.mpr (neg_lt_neg hlt)]
    rfl
  · rw [compare_eq_iff_eq.mpr rfl, compare_eq_iff_eq.mpr rfl]
    rfl
  · rw [compare_gt_iff_gt.mpr hgt, compare_lt_iff_lt.mpr (neg_lt_neg hgt)]
    rfl

/-! ### Values -/

theorem dyadic_positive (m : Nat) (e : Int) : dyadic .positive m e = m * 2 ^ e := one_mul _

theorem dyadic_negative (m : Nat) (e : Int) : dyadic .negative m e = -(m * 2 ^ e) := neg_one_mul _

theorem compare_hasValue {a b : Rat} {f g : UnpackedFloat} (hf : HasValue a f)
    (hg : HasValue b g) : f.compare g = some (compare a b) := by
  have hsize {m : Nat} (hm : 0 < m) (e : Int) : (0 : Rat) < m * 2 ^ e :=
    mul_pos (Nat.cast_pos.mpr hm) (zpow_pos two_pos e)
  cases hf with
  | zero s ha =>
    subst ha
    cases hg with
    | zero t hb =>
      subst hb
      rfl
    | @finite t m e hm canonical hb =>
      cases t with
      | positive =>
        rw [hb, dyadic_positive, compare_lt_iff_lt.mpr (hsize hm e)]
        rfl
      | negative =>
        rw [hb, dyadic_negative, compare_gt_iff_gt.mpr (neg_neg_of_pos (hsize hm e))]
        rfl
  | @finite s m e hm canonical ha =>
    cases hg with
    | zero t hb =>
      subst hb
      cases s with
      | positive =>
        rw [ha, dyadic_positive, compare_gt_iff_gt.mpr (hsize hm e)]
        rfl
      | negative =>
        rw [ha, dyadic_negative, compare_lt_iff_lt.mpr (neg_neg_of_pos (hsize hm e))]
        rfl
    | @finite t m' e' hm' canonical' hb =>
      have hcompare := compare_canonical canonical canonical'
      cases s <;> cases t
      case positive.positive =>
        rw [ha, hb, dyadic_positive, dyadic_positive, ← hcompare]
        rfl
      case negative.negative =>
        rw [ha, hb, dyadic_negative, dyadic_negative, ← compare_swap_neg, ← hcompare]
        rfl
      case positive.negative =>
        rw [ha, hb, dyadic_positive, dyadic_negative, compare_gt_iff_gt.mpr
          ((neg_neg_of_pos (hsize hm' e')).trans (hsize hm e))]
        rfl
      case negative.positive =>
        rw [ha, hb, dyadic_negative, dyadic_positive, compare_lt_iff_lt.mpr
          ((neg_neg_of_pos (hsize hm e)).trans (hsize hm' e'))]
        rfl

/-! ### Comparisons of the program -/

theorem less_eq_compare (x y : Float) :
    Scalar.less x y = (x.toModel.unpack.compare y.toModel.unpack == some .lt) := by
  have houter : Scalar.less x y = Float.lt x y := Bool.decide_coe _
  have hinner : Float.lt x y = x.toModel.unpack.lt y.toModel.unpack := Bool.decide_coe _
  rw [houter, hinner]
  rfl

theorem atMost_eq_compare (x y : Float) :
    Scalar.atMost x y = (x.toModel.unpack.compare y.toModel.unpack).any Ordering.isLE := by
  have houter : Scalar.atMost x y = Float.le x y := Bool.decide_coe _
  have hinner : Float.le x y = x.toModel.unpack.le y.toModel.unpack := Bool.decide_coe _
  rw [houter, hinner]
  rfl

theorem less_iff {x y : Float} {a b : Rat} (hx : value? x = some a) (hy : value? y = some b) :
    Scalar.less x y = true ↔ a < b := by
  rw [less_eq_compare, compare_hasValue (hasValue_unpack hx) (hasValue_unpack hy),
    ← compare_lt_iff_lt]
  cases compare a b <;> decide

theorem atMost_iff {x y : Float} {a b : Rat} (hx : value? x = some a) (hy : value? y = some b) :
    Scalar.atMost x y = true ↔ a ≤ b := by
  rw [atMost_eq_compare, compare_hasValue (hasValue_unpack hx) (hasValue_unpack hy),
    ← compare_le_iff_le]
  cases compare a b <;> decide

theorem equal_iff {x y : Float} {a b : Rat} (hx : value? x = some a) (hy : value? y = some b) :
    Scalar.equal x y = true ↔ a = b := by
  rw [Scalar.equal, Bool.and_eq_true, atMost_iff hx hy, atMost_iff hy hx, ← le_antisymm_iff]

theorem isFinite_iff (x : Float) : Scalar.isFinite x = true ↔ ∃ a, value? x = some a := by
  rw [value?_eq_rational?]
  show x.toModel.unpack.isFinite = true ↔ _
  cases x.toModel.unpack with
  | notANumber => exact iff_of_false Bool.false_ne_true fun ⟨_, h⟩ => by cases h
  | infinity s => exact iff_of_false Bool.false_ne_true fun ⟨_, h⟩ => by cases h
  | zero s => exact iff_of_true rfl ⟨0, rfl⟩
  | finite s m e hm => exact iff_of_true rfl ⟨dyadic s m e, rfl⟩

theorem value?_zero : value? (Scalar.zero : Float) = some 0 := by
  decide +kernel

theorem value?_one : value? (Scalar.one : Float) = some 1 := by
  decide +kernel

theorem isPositive_iff (x : Float) :
    Scalar.isPositive x = true ↔ ∃ a, value? x = some a ∧ 0 < a := by
  rw [Scalar.isPositive, Bool.and_eq_true, isFinite_iff]
  constructor
  · rintro ⟨⟨a, ha⟩, hless⟩
    exact ⟨a, ha, (less_iff value?_zero ha).mp hless⟩
  · rintro ⟨a, ha, hpos⟩
    exact ⟨⟨a, ha⟩, (less_iff value?_zero ha).mpr hpos⟩

/-! ### Comparisons with an infinity -/

theorem isNumber_iff (x : Float) :
    Scalar.isNumber x = true ↔ x.toModel.unpack ≠ .notANumber := by
  show (!x.toModel.unpack.isNaN) = true ↔ _
  cases x.toModel.unpack with
  | notANumber => exact ⟨fun h => absurd h Bool.false_ne_true, fun h => absurd rfl h⟩
  | infinity s | zero s | finite s m e hm =>
    exact ⟨fun _ => UnpackedFloat.noConfusion, fun _ => rfl⟩

variable {x y : Float}

theorem less_infinite (hx : Scalar.isNumber x = true)
    (hy : y.toModel.unpack = .infinity .positive) :
    Scalar.less x y = true ∨ x.toModel.unpack = .infinity .positive := by
  rw [isNumber_iff] at hx
  rw [less_eq_compare, hy]
  match hunpack : x.toModel.unpack with
  | .notANumber => exact absurd hunpack hx
  | .infinity .positive => exact .inr rfl
  | .infinity .negative | .zero _ | .finite _ _ _ _ => exact .inl rfl

theorem maximum_infinite {a b : Float} (ha : a.toModel.unpack = .infinity .positive)
    (hb : Scalar.isNumber b = true) :
    (Scalar.maximum a b).toModel.unpack = .infinity .positive := by
  rw [Scalar.maximum, hb, Bool.not_true, if_neg Bool.false_ne_true]
  obtain hless | hb' := less_infinite hb ha
  · rw [if_pos hless, ha]
  · split
    · exact ha
    · exact hb'

end BasRelief.Double
