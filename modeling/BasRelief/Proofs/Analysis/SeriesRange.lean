import BasRelief.Proofs.Analysis.SeriesExtremes

/-!
# The range of a series

An infinite value of a series shows in one of its extremes, and the mean is finite just where the
sum is. A sum is finite only if all its terms are, and stays so however many terms it has if these
are not too large.
-/

namespace BasRelief

namespace Series
open Double

/-! ### Extremes -/

/-- Numbers with finite extremes are finite. -/
theorem all_finite_of_extremes {vs : List Float} (numbers : ∀ v ∈ vs, Scalar.isNumber v = true)
    (hmax : Scalar.isFinite (ofList vs).max = true)
    (hmin : Scalar.isFinite (ofList vs).min = true) : ∀ v ∈ vs, Scalar.isFinite v = true := by
  intro v hv
  obtain ⟨hlow, hhigh⟩ := extremes_bound numbers v hv
  obtain ⟨a, ha⟩ := (isFinite_iff _).1 hmin
  obtain ⟨b, hb⟩ := (isFinite_iff _).1 hmax
  obtain ⟨x, hx, _⟩ := exists_value?_of_between ha hb hlow hhigh
  exact (isFinite_iff v).2 ⟨x, hx⟩

/-! ### Sums and means -/

theorem isFinite_mean_iff (vs : List Float) :
    Scalar.isFinite (ofList vs).stats.mean = true ↔ Scalar.isFinite (Modal.total vs) = true := by
  obtain rfl | hne := eq_or_ne vs []
  · exact Iff.rfl
  · have hlength : 0 < vs.length := List.length_pos_iff.2 hne
    have hmean : (ofList vs).stats.mean = Modal.total vs / Scalar.natural vs.length := by
      rw [stats, count_ofList, if_neg hlength.ne', sum_ofList]
    rw [hmean]
    exact ⟨isFinite_of_div, fun h => isFinite_mean h hlength⟩

end Series

namespace Modal
open Double

/-- A finite sum has finite terms. -/
theorem isFinite_of_total {vs : List Float} (h : Scalar.isFinite (total vs) = true) :
    ∀ v ∈ vs, Scalar.isFinite v = true := by
  induction vs using List.reverseRecOn with
  | nil => exact fun v hv => nomatch hv
  | append_singleton vs v ih =>
    rw [total_snoc] at h
    obtain ⟨hrest, hv⟩ := isFinite_of_add h
    intro u hu
    obtain hu | hu := List.mem_append.1 hu
    · exact ih hrest u hu
    · rwa [List.eq_of_mem_singleton hu]

/-- Any number of terms that are not too large has a finite sum. -/
theorem isFinite_total {vs : List Float} {n : Int} (hn : n < 970)
    (small : ∀ v ∈ vs, Within (2 ^ n) v) : Scalar.isFinite (total vs) = true := by
  induction vs using List.reverseRecOn with
  | nil => exact (isFinite_iff _).2 ⟨0, value?_zero⟩
  | append_singleton vs v ih =>
    rw [total_snoc]
    exact isFinite_add_small (ih fun u hu => small u (List.mem_append_left _ hu))
      (small v (List.mem_append_right _ List.mem_cons_self)) hn

end Modal
end BasRelief
