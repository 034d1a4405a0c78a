import BasRelief.Proofs.Number.Counts
import BasRelief.Toolpath.Parameters
import Mathlib.Algebra.Order.Ring.Rat
import Mathlib.Tactic.Linarith

/-!
# Depths of the passes

In exact arithmetic the passes stay between the surface and the total depth. On doubles there is a
list of them as long as the number of passes, rounded, is below the length of the longest list.
-/

namespace BasRelief

/-! ### Success -/

/-- The number of the passes as the quotient gives it, before it is cut to a natural number. -/
def wholePasses {α : Type} [Scalar α] (depth limit : α) : α :=
  Scalar.ceiling (depth / limit - Scalar.decimal 1 9)

theorem exists_passDepths_iff {α : Type} [Scalar α] {total limit : α}
    (hlimit : Scalar.isPositive limit = true) :
    (∃ depths, passDepths total limit = .ok depths) ↔ Scalar.isFinite total = true ∧
      (Scalar.atMost Scalar.zero total = false → passCount (-total) limit ≤ longestList) := by
  cases hfinite : Scalar.isFinite total with
  | false => simp [passDepths, depthFault?, hlimit, hfinite]
  | true =>
    have hone : 1 ≤ longestList := by decide
    rw [passDepths_of_fit hlimit hfinite, length_slices, sliceCount]
    cases hsurface : Scalar.atMost Scalar.zero total with
    | true => simp [Nat.not_lt.mpr hone]
    | false =>
      by_cases hlong : longestList < passCount (-total) limit
      · simp [hlong]
      · simp [hlong, Nat.le_of_not_lt hlong]

/-! ### Exact arithmetic -/

theorem isPositive_iff_pos {r : Rat} : Scalar.isPositive r = true ↔ 0 < r := by
  have hless : Scalar.isPositive r = decide ((0 : Nat) < r) := rfl
  rw [hless, decide_eq_true_eq, Nat.cast_zero]

theorem le_passDepth {total limit : Rat} {passes number : Nat} :
    total ≤ passDepth total limit passes number := by
  unfold passDepth
  split
  · exact le_rfl
  · show total ≤ if decide (-limit * number < total) then total else -limit * number
    split
    · exact le_rfl
    · next h => exact not_lt.mp (of_decide_eq_false (Bool.of_not_eq_true h))

theorem passDepth_nonpos {total limit : Rat} (htotal : total ≤ 0) (hlimit : 0 < limit)
    {passes number : Nat} : passDepth total limit passes number ≤ 0 := by
  unfold passDepth
  split
  · exact htotal
  · show (if decide (-limit * number < total) then total else -limit * number) ≤ 0
    split
    · exact htotal
    · have hproduct : 0 ≤ limit * number := mul_nonneg hlimit.le (Nat.cast_nonneg number)
      rw [neg_mul]
      exact neg_nonpos.mpr hproduct

theorem slices_within {total limit : Rat} (htotal : total ≤ 0) (hlimit : 0 < limit) :
    ∀ depth ∈ slices total limit, total ≤ depth ∧ depth ≤ 0 := by
  unfold slices
  split
  · intro depth hdepth
    obtain rfl := List.mem_singleton.mp hdepth
    exact ⟨le_rfl, htotal⟩
  · intro depth hdepth
    obtain ⟨i, _, rfl⟩ := List.mem_map.mp hdepth
    exact ⟨le_passDepth, passDepth_nonpos htotal hlimit⟩

theorem limit_pos_of_depthFault? {total limit : Rat} (h : depthFault? total limit = none) :
    0 < limit := by
  unfold depthFault? at h
  split at h
  · cases h
  · next hlimit => simpa [isPositive_iff_pos] using hlimit

/-- No pass is deeper than the total, and none is above the surface. -/
theorem passDepths_within {total limit : Rat} {depths : List Rat} (htotal : total ≤ 0)
    (h : passDepths total limit = .ok depths) : ∀ depth ∈ depths, total ≤ depth ∧ depth ≤ 0 := by
  unfold passDepths at h
  split at h
  · cases h
  · next hfault =>
    split at h
    · cases h
    · obtain rfl := Except.ok.inj h
      exact slices_within htotal (limit_pos_of_depthFault? hfault)

/-! ### Doubles -/

namespace Double

theorem value?_slack : value? (Scalar.decimal 1 9) = some (4835703278458517 / 2 ^ 82) := by
  decide +kernel

/-- The bound is the least fraction that is rounded to the power of two; below it the passes,
rounded up, are a whole number. -/
theorem exists_wholePasses {depth limit : Float} {d l : Rat} (hdepth : value? depth = some d)
    (hlimit : value? limit = some l) (hd : 0 ≤ d) (hl : 0 < l) (hcount : d / l < 2 ^ 60 - 2 ^ 6) :
    ∃ n : Int, value? (wholePasses depth limit) = some (n : Rat) ∧ n ≤ 2 ^ 60 - 2 ^ 7 := by
  have hquotient : 0 ≤ d / l := div_nonneg hd hl.le
  have hlarge : (2 : Rat) ^ 60 < overflowBound := by decide +kernel
  -- the quotient is rounded to less than the power of two, so it is a last place below it
  obtain ⟨v, hv, hnear⟩ := (rounds_div hdepth hlimit hl.ne').exists_nearest (by
    rw [abs_of_nonneg hquotient]
    linarith)
  have hv0 : 0 ≤ v := hnear.nonneg hquotient
  have hlt : |v| < 2 ^ (60 : Int) := hnear.lt_of_lt_sub (t := 7) (by decide) (by decide) (by
    rw [abs_of_nonneg hquotient]
    norm_num at hcount ⊢
    exact hcount)
  rw [abs_of_nonneg hv0] at hlt
  have hplace : v ≤ (2 ^ 53 - 1) * 2 ^ (7 : Int) := value_le_of_lt hv (by decide) (by
    norm_num at hlt ⊢
    exact hlt)
  have hplace' : v ≤ ((2 ^ 60 - 2 ^ 7 : Int) : Rat) := by
    norm_num at hplace ⊢
    exact hplace
  -- less the slack it is no more, and rounding up stays at or below that whole number
  obtain ⟨w, hw, hnear'⟩ := (rounds_sub hv value?_slack).exists_nearest (by
    rw [abs_lt]
    constructor <;> norm_num <;> linarith)
  have hle : w ≤ v := hnear'.mono (.of_value hv) (sub_le_self v (by norm_num))
  exact ⟨⌈w⌉, value?_ceiling hw, Int.ceil_le.mpr (hle.trans hplace')⟩

/-- A whole number of passes that fits into a machine word is counted as it is, and none as one. -/
theorem passCount_of_wholePasses {depth limit : Float} {n : Int}
    (h : value? (wholePasses depth limit) = some (n : Rat)) (hn : n < 2 ^ 64) :
    (passCount depth limit : Int) = max n 1 := by
  have hvalue := value?_maximum h value?_one
  obtain ⟨k, hk⟩ := Int.eq_ofNat_of_zero_le (show 0 ≤ max n 1 by omega)
  have hcast : max (n : Rat) 1 = (k : Nat) := by
    have hint : ((max n 1 : Int) : Rat) = ((k : Int) : Rat) := congrArg Int.cast hk
    rwa [Int.cast_max, Int.cast_one, Int.cast_natCast] at hint
  have hsize : k < UInt64.size := by
    have hmost : UInt64.size = 2 ^ 64 := rfl
    omega
  rw [hk, Nat.cast_inj]
  exact le_antisymm (truncate_le hvalue hcast.le) (le_truncate hvalue hcast.ge hsize)

/-- From the bound on there are as many passes as the power of two, or more, or infinitely many. -/
theorem atLeast_wholePasses {depth limit : Float} {d l : Rat} (hdepth : value? depth = some d)
    (hlimit : value? limit = some l) (hl : 0 < l) (hcount : 2 ^ 60 - 2 ^ 6 ≤ d / l) :
    AtLeast (2 ^ 60) (wholePasses depth limit) := by
  have hlead : (2 : Rat) ^ 60 = 2 ^ 52 * 2 ^ (8 : Int) := by norm_num
  have hquotient : AtLeast (2 ^ 52 * 2 ^ (8 : Int)) (depth / limit) :=
    (rounds_div hdepth hlimit hl.ne').atLeast_lead (by decide) (by
      norm_num at hcount ⊢
      exact hcount)
  have hless : AtLeast (2 ^ 52 * 2 ^ (8 : Int)) (depth / limit - Scalar.decimal 1 9) :=
    hquotient.sub_small value?_slack (by decide) (by norm_num)
  rw [hlead]
  exact hless.ceiling

theorem le_passCount {depth limit : Float} (h : AtLeast (2 ^ 60) (wholePasses depth limit)) :
    2 ^ 60 ≤ passCount depth limit :=
  (h.maximum value?_one).le_truncate (by norm_num) (by decide)

theorem passCount_le {depth limit : Float} {d l : Rat} (hdepth : value? depth = some d)
    (hlimit : value? limit = some l) (hd : 0 ≤ d) (hl : 0 < l) (hcount : d / l < 2 ^ 60 - 2 ^ 6) :
    passCount depth limit ≤ longestList := by
  obtain ⟨n, hn, hle⟩ := exists_wholePasses hdepth hlimit hd hl hcount
  have hpasses := passCount_of_wholePasses hn (by omega)
  have hlongest : longestList = 2 ^ 60 - 1 := rfl
  omega

theorem passDepths_isOk {total limit : Float} {t l : Rat} (htotal : value? total = some t)
    (hlimit : value? limit = some l) (hl : 0 < l) (hcount : -t / l < 2 ^ 60 - 2 ^ 6) :
    ∃ depths, passDepths total limit = .ok depths := by
  have hpositive : Scalar.isPositive limit = true := (isPositive_iff limit).mpr ⟨l, hlimit, hl⟩
  have hfinite : Scalar.isFinite total = true := (isFinite_iff total).mpr ⟨t, htotal⟩
  refine (exists_passDepths_iff hpositive).mpr ⟨hfinite, fun hsurface => ?_⟩
  have hbelow : t < 0 :=
    not_le.mp (mt (atMost_iff value?_zero htotal).mpr (ne_true_of_eq_false hsurface))
  exact passCount_le (value?_neg htotal) hlimit (neg_nonneg.mpr hbelow.le) hl hcount

end Double
end BasRelief
