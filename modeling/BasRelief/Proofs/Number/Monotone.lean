import BasRelief.Proofs.Number.Sign
import BasRelief.Proofs.Number.Sums

/-!
# Rounding keeps the order

A greater fraction has no smaller nearest double. So a rounded result is finite exactly where the
exact one lies below the bound of overflow.
-/

namespace BasRelief.Double
open Float.Model Float.Model.UnpackedFloat

/-! ### Units of the last place -/

theorem le_of_units_le {q : Rat} {t r k : Int} (hnear : |q - r * 2 ^ t| ≤ 2 ^ t / 2)
    (hq : q ≤ k * 2 ^ t) : r ≤ k := by
  have hpos : (0 : Rat) < 2 ^ t := zpow_pos two_pos t
  have hlow := (abs_le.mp hnear).1
  have hunits : (r : Rat) * 2 ^ t < (k + 1) * 2 ^ t := by linarith
  have hlt : (r : Rat) < ((k + 1 : Int) : Rat) := by
    push_cast
    exact lt_of_mul_lt_mul_right hunits hpos.le
  exact Int.lt_add_one_iff.mp (Int.cast_lt.mp hlt)

theorem units_le_of_le {q : Rat} {t r k : Int} (hnear : |q - r * 2 ^ t| ≤ 2 ^ t / 2)
    (hq : k * 2 ^ t ≤ q) : k ≤ r := by
  have hpos : (0 : Rat) < 2 ^ t := zpow_pos two_pos t
  have hhigh := (abs_le.mp hnear).2
  have hunits : (k : Rat) * 2 ^ t < (r + 1) * 2 ^ t := by linarith
  have hlt : (k : Rat) < ((r + 1 : Int) : Rat) := by
    push_cast
    exact lt_of_mul_lt_mul_right hunits hpos.le
  exact Int.lt_add_one_iff.mp (Int.cast_lt.mp hlt)

namespace Nearest

/-! ### Order -/

theorem mono_of_nonneg {q q' v v' : Rat} (h : Nearest q v) (h' : Nearest q' v') (hq : 0 ≤ q)
    (hle : q ≤ q') : v ≤ v' := by
  have hsame : q = q' → v = v' := by
    rintro rfl
    exact h.unique h'
  obtain ⟨t, r, hplace, hnear, _⟩ := h
  obtain ⟨t', r', hplace', hnear', _⟩ := h'
  have hpos : (0 : Rat) < 2 ^ t := zpow_pos two_pos t
  have hpos' : (0 : Rat) < 2 ^ t' := zpow_pos two_pos t'
  have hbound := hplace.bound
  have hbound' := hplace'.bound
  rw [abs_of_nonneg hq] at hbound
  rw [abs_of_nonneg (hq.trans hle)] at hbound'
  have ht : t ≤ t' := hplace.le_of_lt hplace'.least (by
    rw [abs_of_nonneg hq]
    exact hle.trans_lt hbound')
  obtain rfl | hlt := ht.eq_or_lt
  · -- with one place, a greater multiple for the smaller fraction leaves both half-way
    obtain hr | hr := le_or_gt r r'
    · exact mul_le_mul_of_nonneg_right (Int.cast_le.mpr hr) hpos.le
    · have hstep : (r' + 1 : Rat) * 2 ^ t ≤ r * 2 ^ t := by
        have hcast : ((r' + 1 : Int) : Rat) ≤ r := Int.cast_le.mpr hr
        push_cast at hcast
        exact mul_le_mul_of_nonneg_right hcast hpos.le
      have hlow := (abs_le.mp hnear).1
      have hhigh := (abs_le.mp hnear').2
      exact (hsame (by linarith)).le
  · -- a finer place lies below the lead bit of the coarser one
    have hfull : (2 : Rat) ^ 52 * 2 ^ t' ≤ q' := by
      obtain hleast | hfull := hplace'.full
      · exact absurd hplace.least (by omega)
      · rwa [abs_of_nonneg (hq.trans hle)] at hfull
    have hr : r ≤ 2 ^ 53 := le_of_units_le hnear (by
      push_cast
      exact hbound.le)
    have hr' : 2 ^ 52 ≤ r' := units_le_of_le hnear' (by
      push_cast
      exact hfull)
    have hunit : (2 : Rat) ^ t * 2 ≤ 2 ^ t' := by
      rw [← zpow_add_one₀ two_ne_zero]
      exact zpow_le_zpow_right₀ one_le_two hlt
    have hcast : (r : Rat) ≤ 2 ^ 53 := by exact_mod_cast hr
    have hcast' : (2 : Rat) ^ 52 ≤ r' := by exact_mod_cast hr'
    calc (r : Rat) * 2 ^ t ≤ 2 ^ 53 * 2 ^ t := mul_le_mul_of_nonneg_right hcast hpos.le
      _ = 2 ^ 52 * (2 ^ t * 2) := by ring
      _ ≤ 2 ^ 52 * 2 ^ t' := by gcongr
      _ ≤ r' * 2 ^ t' := mul_le_mul_of_nonneg_right hcast' hpos'.le

theorem mono {q q' v v' : Rat} (h : Nearest q v) (h' : Nearest q' v') (hle : q ≤ q') : v ≤ v' := by
  obtain hq | hq := le_total 0 q
  · exact h.mono_of_nonneg h' hq hle
  · have hv : v ≤ 0 := neg_nonneg.mp (h.neg.nonneg (neg_nonneg.mpr hq))
    obtain hq' | hq' := le_total 0 q'
    · exact hv.trans (h'.nonneg hq')
    · exact neg_le_neg_iff.mp
        (h'.neg.mono_of_nonneg h.neg (neg_nonneg.mpr hq') (neg_le_neg hle))

theorem abs {q v : Rat} (h : Nearest q v) : Nearest |q| |v| := by
  obtain hq | hq := le_total 0 q
  · rwa [abs_of_nonneg hq, abs_of_nonneg (h.nonneg hq)]
  · have hv : v ≤ 0 := neg_nonneg.mp (h.neg.nonneg (neg_nonneg.mpr hq))
    rw [abs_of_nonpos hq, abs_of_nonpos hv]
    exact h.neg

/-- A double is nearest to itself. -/
theorem of_value {x : Float} {a : Rat} (hx : value? x = some a) : Nearest a a := by
  have hvalue := hasValue_unpack hx
  generalize x.toModel.unpack = f at hvalue
  cases hvalue with
  | zero s h => exact h ▸ Nearest.zero
  | finite canonical h =>
    rw [h]
    exact (of_canonical canonical).factor _

end Nearest

/-! ### Overflow -/

/-- Half a unit above the greatest double is rounded up, to the even neighbour. -/
theorem nearest_overflowBound : Nearest overflowBound (2 ^ (1024 : Int)) := by
  have hpos : (0 : Rat) < 2 ^ (970 : Int) := zpow_pos two_pos _
  have hunit : (2 : Rat) ^ (972 : Int) = 2 ^ (970 : Int) * 2 ^ 2 := by
    rw [← zpow_natCast (2 : Rat) 2, ← zpow_add₀ two_ne_zero]
    rfl
  have hlead : (2 : Rat) ^ (1024 : Int) = 2 ^ 52 * 2 ^ (972 : Int) := by
    rw [← zpow_natCast (2 : Rat) 52, ← zpow_add₀ two_ne_zero]
    rfl
  rw [hlead]
  apply nearest_below_lead (by decide) <;> rw [overflowBound, hunit] <;>
    generalize (2 : Rat) ^ (970 : Int) = u at hpos <;> linarith

theorem greatestValue_lt : greatestValue < 2 ^ (1024 : Int) := by
  have hpower : (2 : Rat) ^ (1024 : Int) = 2 ^ 53 * 2 ^ (971 : Int) := by
    rw [← zpow_natCast, ← zpow_add₀ two_ne_zero]
    rfl
  rw [hpower, greatestValue]
  gcongr
  norm_num

/-- A fraction whose nearest double is finite lies below the bound. -/
theorem Nearest.lt_overflowBound {q v : Rat} (h : Nearest q v) (hv : |v| ≤ greatestValue) :
    |q| < overflowBound := by
  by_contra hlarge
  have hge := nearest_overflowBound.mono h.abs (not_lt.mp hlarge)
  exact absurd (hge.trans hv) (not_le.mpr greatestValue_lt)

theorem Rounds.exists_nearest {x : Float} {q : Rat} (h : Rounds x q) (hq : |q| < overflowBound) :
    ∃ v, value? x = some v ∧ Nearest q v := by
  cases h with
  | finite value near => exact ⟨_, value, near⟩
  | overflow infinite sign large => exact absurd hq (not_lt.mpr large)

theorem Rounds.isFinite_iff {x : Float} {q : Rat} (h : Rounds x q) :
    Scalar.isFinite x = true ↔ |q| < overflowBound := by
  rw [Double.isFinite_iff]
  constructor
  · rintro ⟨v, hv⟩
    exact (h.nearest hv).lt_overflowBound (abs_le_of_value? hv)
  · intro hsmall
    obtain ⟨v, hv, _⟩ := h.exists_nearest hsmall
    exact ⟨v, hv⟩

end BasRelief.Double
