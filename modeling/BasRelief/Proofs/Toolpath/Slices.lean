import BasRelief.Proofs.Number.ExactRounding
import BasRelief.Proofs.Toolpath.PassDepths
import Mathlib.Tactic.NormNum
import Mathlib.Tactic.Positivity

/-!
# Slices in exact arithmetic

A total below the surface is cut in slices of the limit, with what is left at the end. The slack in
the count of the passes lets the last slice be thicker than the limit by a billionth of it, so that
an exact multiple of the limit gains no pass.
-/

namespace BasRelief

/-! ### The number of passes -/

/-- What is granted to the last slice, as a part of the limit. -/
def slack : Rat := 1 / 10 ^ 9

theorem ceil_eq (r : Rat) : r.ceil = ⌈r⌉ :=
  eq_of_forall_ge_iff fun _ => Rat.ceil_le_iff.trans Int.ceil_le.symm

theorem passCount_eq (depth limit : Rat) :
    (passCount depth limit : Int) = max 1 ⌈depth / limit - slack⌉ := by
  have hslack : (Scalar.decimal 1 9 : Rat) = slack := by decide +kernel
  have hone : (Scalar.one : Rat) = ((1 : Int) : Rat) := by decide +kernel
  have hceiling : Scalar.ceiling (depth / limit - Scalar.decimal 1 9) =
      (⌈depth / limit - slack⌉ : Rat) := by
    rw [hslack, ← ceil_eq]
    rfl
  have hcount : passCount depth limit = ⌊((max ⌈depth / limit - slack⌉ 1 : Int) : Rat)⌋.toNat := by
    rw [passCount, hceiling, hone, Exact.maximum_eq_max, Int.cast_max]
    rfl
  rw [hcount, Int.floor_intCast, Int.toNat_of_nonneg (by omega), max_comm]

/-- The number of the passes is the least one that leaves no more than the slack. -/
theorem passCount_bounds (depth limit : Rat) :
    1 ≤ passCount depth limit ∧ depth / limit - slack ≤ passCount depth limit ∧
      ∀ number : Nat, 0 < number → number < passCount depth limit →
        (number : Rat) < depth / limit - slack := by
  have hcount := passCount_eq depth limit
  refine ⟨by omega, ?_, ?_⟩
  · have hceil : ⌈depth / limit - slack⌉ ≤ (passCount depth limit : Int) := by omega
    exact_mod_cast Int.ceil_le.mp hceil
  · intro number hpos hnumber
    have hceil : (number : Int) < ⌈depth / limit - slack⌉ := by omega
    exact_mod_cast Int.lt_ceil.mp hceil

/-! ### The depth of one pass -/

section
variable {total limit : Rat}

theorem total_lt_multiple (htotal : total < 0) (hlimit : 0 < limit) {number : Nat}
    (h : number < passCount (-total) limit) : total < -limit * number := by
  obtain rfl | hpos := Nat.eq_zero_or_pos number
  · simpa using htotal
  · have hlt := (passCount_bounds (-total) limit).2.2 number hpos h
    have hslack : (0 : Rat) < slack := by norm_num [slack]
    have hquotient : (number : Rat) < -total / limit := by linarith
    have hproduct := (lt_div_iff₀ hlimit).mp hquotient
    linarith

theorem passDepth_of_lt (htotal : total < 0) (hlimit : 0 < limit) {number : Nat}
    (h : number < passCount (-total) limit) :
    passDepth total limit (passCount (-total) limit) number = -limit * number := by
  have hlt := total_lt_multiple htotal hlimit h
  rw [passDepth, if_neg h.ne, Exact.maximum_eq_max]
  exact max_eq_right hlt.le

theorem passDepth_last (total limit : Rat) (passes : Nat) :
    passDepth total limit passes passes = total := if_pos rfl

theorem passDepth_lt (htotal : total < 0) (hlimit : 0 < limit) {first second : Nat}
    (hlt : first < second) (hsecond : second ≤ passCount (-total) limit) :
    passDepth total limit (passCount (-total) limit) second <
      passDepth total limit (passCount (-total) limit) first := by
  have hfirst := passDepth_of_lt htotal hlimit (hlt.trans_le hsecond)
  rw [hfirst]
  rcases hsecond.lt_or_eq with hsecond | rfl
  · have hcast : (first : Rat) < second := Nat.cast_lt.mpr hlt
    rw [passDepth_of_lt htotal hlimit hsecond, neg_mul, neg_mul, neg_lt_neg_iff]
    exact mul_lt_mul_of_pos_left hcast hlimit
  · rw [passDepth_last]
    exact total_lt_multiple htotal hlimit hlt

/-- Only the last slice can be thicker than the limit, and only by the slack. -/
theorem passDepth_sub_le (htotal : total < 0) (hlimit : 0 < limit) {number : Nat}
    (h : number < passCount (-total) limit) :
    passDepth total limit (passCount (-total) limit) number -
      passDepth total limit (passCount (-total) limit) (number + 1) ≤ limit * (1 + slack) := by
  have hslack : 0 ≤ limit * slack := mul_nonneg hlimit.le (by norm_num [slack])
  rw [passDepth_of_lt htotal hlimit h]
  have hle : number + 1 ≤ passCount (-total) limit := h
  rcases hle.lt_or_eq with hnext | hlast
  · rw [passDepth_of_lt htotal hlimit hnext, Nat.cast_succ]
    linarith
  · have hbound := (passCount_bounds (-total) limit).2.1
    rw [← hlast, Nat.cast_succ] at hbound
    have hquotient : -total / limit ≤ number + 1 + slack := by linarith
    have hproduct := (div_le_iff₀ hlimit).mp hquotient
    rw [hlast, passDepth_last]
    linarith

end

/-! ### All passes -/

/-- What slicing a total below the surface gives. -/
structure SlicesTo (total limit : Rat) (depths : List Rat) : Prop where
  length : (depths.length : Int) = max 1 ⌈|total| / limit - slack⌉
  decreasing : depths.Pairwise (· > ·)
  multiple : ∀ i, i + 1 < depths.length → depths[i]? = some (-limit * (i + 1 : Nat))
  reaches : depths.getLast? = some total
  above : ∀ depth ∈ depths, total ≤ depth
  thin : (0 :: depths).IsChain fun before after => before - after ≤ limit * (1 + slack)

theorem slices_of_neg {total : Rat} (htotal : total < 0) (limit : Rat) :
    slices total limit = (List.range (passCount (-total) limit)).map fun i =>
      passDepth total limit (passCount (-total) limit) (i + 1) := by
  have hsurface : ¬Scalar.atMost Scalar.zero total = true := by
    show ¬decide (((0 : Nat) : Rat) ≤ total) = true
    simpa using htotal
  rw [slices, if_neg hsurface]

theorem slices_of_nonneg {total : Rat} (htotal : 0 ≤ total) (limit : Rat) :
    slices total limit = [total] := by
  have hsurface : Scalar.atMost Scalar.zero total = true := by
    show decide (((0 : Nat) : Rat) ≤ total) = true
    simpa using htotal
  rw [slices, if_pos hsurface]

theorem slicesTo_slices {total limit : Rat} (htotal : total < 0) (hlimit : 0 < limit) :
    SlicesTo total limit (slices total limit) where
  length := by
    rw [slices_of_neg htotal, List.length_map, List.length_range, passCount_eq, abs_of_neg htotal]
  decreasing := by
    rw [slices_of_neg htotal, List.pairwise_map]
    refine List.pairwise_lt_range.imp_of_mem fun _ hb hlt => ?_
    have hb := List.mem_range.mp hb
    exact passDepth_lt htotal hlimit (Nat.succ_lt_succ hlt) hb
  multiple i hi := by
    rw [slices_of_neg htotal, List.length_map, List.length_range] at hi
    have hdepth := passDepth_of_lt htotal hlimit hi
    rw [slices_of_neg htotal, List.getElem?_map, List.getElem?_range (by omega), Option.map_some, hdepth]
  reaches := by
    have hpos := (passCount_bounds (-total) limit).1
    obtain ⟨n, hn⟩ := Nat.exists_eq_add_of_le' hpos
    rw [slices_of_neg htotal, hn, List.range_succ, List.map_append, List.getLast?_append]
    simp [passDepth_last]
  above depth hdepth := by
    rw [slices_of_neg htotal] at hdepth
    obtain ⟨i, -, rfl⟩ := List.mem_map.mp hdepth
    exact le_passDepth
  thin := by
    have hpos := (passCount_bounds (-total) limit).1
    have hsurface : passDepth total limit (passCount (-total) limit) 0 = 0 := by
      rw [passDepth_of_lt htotal hlimit hpos, Nat.cast_zero, mul_zero]
    have hall : 0 :: slices total limit = (List.range (passCount (-total) limit + 1)).map
        (passDepth total limit (passCount (-total) limit)) := by
      rw [slices_of_neg htotal, List.range_succ_eq_map, List.map_cons, List.map_map, hsurface]
      rfl
    rw [hall, List.isChain_iff_getElem]
    intro i hi
    rw [List.length_map, List.length_range] at hi
    simp only [List.getElem_map, List.getElem_range]
    exact passDepth_sub_le htotal hlimit (by omega)

/-- Every total is sliced: at or above the surface it is one slice, and below it the slices are those
of the formula. The passes are the slices, listed where a list is long enough. -/
theorem passDepths_sliced {total limit : Rat} (hlimit : 0 < limit) :
    (0 ≤ total → slices total limit = [total] ∧ passDepths total limit = .ok [total]) ∧
    (total < 0 → SlicesTo total limit (slices total limit)) ∧
    passDepths total limit =
      if longestList < (slices total limit).length then
        .error (.unlistablePasses (slices total limit).length)
      else .ok (slices total limit) := by
  have hlisted := passDepths_of_fit (isPositive_iff_pos.mpr hlimit)
    (show Scalar.isFinite total = true from rfl)
  refine ⟨fun htotal => ?_, fun htotal => slicesTo_slices htotal hlimit, hlisted⟩
  have hsurface := slices_of_nonneg htotal limit
  rw [hsurface] at hlisted
  exact ⟨hsurface, hlisted⟩

/-- Three passes: two of the limit, and a thinner one. -/
theorem threeSlices_sliced :
    (0 : Rat) < 2 ∧ (-26 / 5 : Rat) < 0 ∧ passDepths (-26 / 5 : Rat) 2 = .ok [-2, -4, -26 / 5] ∧
      SlicesTo (-26 / 5) 2 [-2, -4, -26 / 5] := by
  have hslices : slices (-26 / 5 : Rat) 2 = [-2, -4, -26 / 5] := by decide +kernel
  have hlimit : (0 : Rat) < 2 := by decide +kernel
  have htotal : (-26 / 5 : Rat) < 0 := by decide +kernel
  obtain ⟨_, hbelow, hdepths⟩ := @passDepths_sliced (-26 / 5) 2 hlimit
  have hsliced := hbelow htotal
  rw [hslices] at hsliced hdepths
  exact ⟨hlimit, htotal, hdepths, hsliced⟩

end BasRelief
