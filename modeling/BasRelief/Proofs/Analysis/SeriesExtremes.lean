import BasRelief.Proofs.Analysis.Modal
import BasRelief.Proofs.Number.Line
import Mathlib.Algebra.BigOperators.Group.List.Basic
import Mathlib.Algebra.Order.BigOperators.Group.List

/-!
# The extremes of a series

The extremes of a series are two of its values, and no value lies beyond them; the zeros that a
series starts with are seen only where there is no value. In exact arithmetic the mean is the sum
over the count and lies between the extremes.
-/

namespace BasRelief.Series
variable {α : Type} [Scalar α]

/-! ### Choices -/

theorem maximum_choice (a b : α) : Scalar.maximum a b = a ∨ Scalar.maximum a b = b := by
  unfold Scalar.maximum
  split
  · exact .inl rfl
  · split
    · exact .inl rfl
    · exact .inr rfl

theorem minimum_choice (a b : α) : Scalar.minimum a b = a ∨ Scalar.minimum a b = b := by
  unfold Scalar.minimum
  split
  · exact .inl rfl
  · split
    · exact .inl rfl
    · exact .inr rfl

theorem extremes_snoc {vs : List α} (h : vs ≠ []) (v : α) :
    (ofList (vs ++ [v])).max = Scalar.maximum (ofList vs).max v ∧
      (ofList (vs ++ [v])).min = Scalar.minimum (ofList vs).min v := by
  have hcount : (ofList vs).count ≠ 0 := by
    rw [count_ofList]
    exact mt List.length_eq_zero_iff.1 h
  rw [ofList_append_single]
  exact ⟨if_neg hcount, if_neg hcount⟩

theorem extremes_mem {vs : List α} (h : vs ≠ []) :
    (ofList vs).min ∈ vs ∧ (ofList vs).max ∈ vs := by
  induction vs using List.reverseRecOn with
  | nil => exact absurd rfl h
  | append_singleton vs v ih =>
    have hv : v ∈ vs ++ [v] := List.mem_append_right _ List.mem_cons_self
    obtain rfl | hne := eq_or_ne vs []
    · exact ⟨hv, hv⟩
    · obtain ⟨hmin, hmax⟩ := ih hne
      rw [(extremes_snoc hne v).1, (extremes_snoc hne v).2]
      constructor
      · obtain h | h := minimum_choice (ofList vs).min v <;> rw [h]
        · exact List.mem_append_left _ hmin
        · exact hv
      · obtain h | h := maximum_choice (ofList vs).max v <;> rw [h]
        · exact List.mem_append_left _ hmax
        · exact hv

/-- What holds of zero and of every value holds of the extremes. -/
theorem extremes_of_all {p : α → Prop} (zero : p Scalar.zero) {vs : List α}
    (all : ∀ v ∈ vs, p v) : p (ofList vs).max ∧ p (ofList vs).min := by
  obtain rfl | hne := eq_or_ne vs []
  · exact ⟨zero, zero⟩
  · obtain ⟨hmin, hmax⟩ := extremes_mem hne
    exact ⟨all _ hmax, all _ hmin⟩

theorem extremes_stats (vs : List α) :
    (ofList vs).stats.max = (ofList vs).max ∧ (ofList vs).stats.min = (ofList vs).min := by
  obtain rfl | hne := eq_or_ne vs []
  · exact ⟨rfl, rfl⟩
  · have hlength : 0 < vs.length := List.length_pos_iff.2 hne
    rw [stats, count_ofList, if_neg hlength.ne']
    exact ⟨rfl, rfl⟩

theorem sum_ofList (vs : List α) : (ofList vs).sum = Modal.total vs := by
  induction vs using List.reverseRecOn with
  | nil => rfl
  | append_singleton vs v ih =>
    rw [ofList_append_single, Modal.total_snoc, ← ih]
    rfl

/-! ### What statistics say of the values -/

/-- Two of the values that no value lies beyond, or zeros where there is no value. -/
structure AreExtremes (vs : List α) (least greatest : α) : Prop where
  zeros : vs = [] → least = Scalar.zero ∧ greatest = Scalar.zero
  mem : vs ≠ [] → least ∈ vs ∧ greatest ∈ vs
  bounds : ∀ v ∈ vs, Scalar.atMost least v = true ∧ Scalar.atMost v greatest = true

/-- Statistics of some values; the sum behind the mean may as well start from the first value. -/
structure Describes (vs : List α) (s : SeriesStats α) : Prop where
  count : s.count = vs.length
  extremes : AreExtremes vs s.min s.max
  zeros : vs = [] → s = .none
  mean : vs ≠ [] → s.mean = Modal.total vs / Scalar.natural vs.length
  unstarted : ∀ v rest, vs = v :: rest →
    Scalar.SameNumber (Modal.total vs) (rest.foldl (· + ·) v)

section
variable [Scalar.Lawful α]

theorem extremes_bound {vs : List α} (numbers : ∀ v ∈ vs, Scalar.isNumber v = true) :
    ∀ v ∈ vs, Scalar.atMost (ofList vs).min v = true ∧ Scalar.atMost v (ofList vs).max = true := by
  induction vs using List.reverseRecOn with
  | nil => exact fun v hv => nomatch hv
  | append_singleton vs w ih =>
    have hw : Scalar.isNumber w = true :=
      numbers w (List.mem_append_right _ List.mem_cons_self)
    have hbefore : ∀ v ∈ vs, Scalar.isNumber v = true :=
      fun v hv => numbers v (List.mem_append_left _ hv)
    obtain rfl | hne := eq_or_ne vs []
    · intro v hv
      obtain rfl := List.eq_of_mem_singleton hv
      exact ⟨Scalar.Lawful.atMost_refl hw, Scalar.Lawful.atMost_refl hw⟩
    · obtain ⟨hminMem, hmaxMem⟩ := extremes_mem hne
      obtain ⟨hmin, hminLast⟩ := Scalar.minimum_le (hbefore _ hminMem) hw
      obtain ⟨hmax, hmaxLast⟩ := Scalar.le_maximum (hbefore _ hmaxMem) hw
      rw [(extremes_snoc hne w).1, (extremes_snoc hne w).2]
      intro v hv
      obtain hv | hv := List.mem_append.1 hv
      · obtain ⟨hlow, hhigh⟩ := ih hbefore v hv
        exact ⟨Scalar.Lawful.atMost_trans hmin hlow, Scalar.Lawful.atMost_trans hhigh hmax⟩
      · obtain rfl := List.eq_of_mem_singleton hv
        exact ⟨hminLast, hmaxLast⟩

theorem areExtremes_stats {vs : List α} (numbers : ∀ v ∈ vs, Scalar.isNumber v = true) :
    AreExtremes vs (ofList vs).stats.min (ofList vs).stats.max := by
  rw [(extremes_stats vs).1, (extremes_stats vs).2]
  refine ⟨?_, extremes_mem, extremes_bound numbers⟩
  rintro rfl
  exact ⟨rfl, rfl⟩

theorem sameNumber_total {v : α} {rest : List α}
    (numbers : ∀ w ∈ v :: rest, Scalar.isNumber w = true) :
    Scalar.SameNumber (Modal.total (v :: rest)) (rest.foldl (· + ·) v) := by
  have key : ∀ (ws : List α) (a b : α), (∀ w ∈ ws, Scalar.isNumber w = true) →
      Scalar.SameNumber a b →
      Scalar.SameNumber (ws.foldl (· + ·) a) (ws.foldl (· + ·) b) := by
    intro ws
    induction ws with
    | nil => exact fun a b _ h => h
    | cons w ws ih =>
      intro a b hws h
      obtain ⟨hw, hws⟩ := List.forall_mem_cons.1 hws
      exact ih (a + w) (b + w) hws (Scalar.Lawful.add_right hw h)
  obtain ⟨hv, hrest⟩ := List.forall_mem_cons.1 numbers
  exact key rest _ v hrest (Scalar.Lawful.zero_add hv)

theorem describes_stats {vs : List α} (numbers : ∀ v ∈ vs, Scalar.isNumber v = true) :
    Describes vs (ofList vs).stats where
  count := (count_stats _).trans (count_ofList vs)
  extremes := areExtremes_stats numbers
  zeros := by
    rintro rfl
    rfl
  mean hne := by
    have hlength : 0 < vs.length := List.length_pos_iff.2 hne
    rw [stats, count_ofList, if_neg hlength.ne', sum_ofList]
  unstarted v rest h := by
    subst h
    exact sameNumber_total numbers

end

/-! ### Means in exact arithmetic -/

/-- The mean of fractions: times the count it is their sum, and it lies between the extremes. -/
structure HasMean (vs : List Rat) (s : SeriesStats Rat) : Prop where
  sum : s.mean * s.count = vs.sum
  low : s.min ≤ s.mean
  high : s.mean ≤ s.max

theorem total_eq_sum (vs : List Rat) : Modal.total vs = vs.sum := by
  induction vs using List.reverseRecOn with
  | nil => rfl
  | append_singleton vs v ih =>
    rw [Modal.total_snoc, ih, List.sum_append, List.sum_singleton]

theorem hasMean_stats (vs : List Rat) : HasMean vs (ofList vs).stats := by
  have hdescribes := describes_stats (fun v (_ : v ∈ vs) => rfl)
  have hcount := hdescribes.count
  obtain rfl | hne := eq_or_ne vs []
  · exact ⟨by decide +kernel, le_rfl, le_rfl⟩
  have hpos : (0 : Rat) < vs.length := Nat.cast_pos.2 (List.length_pos_iff.2 hne)
  have hmean : (ofList vs).stats.mean = vs.sum / vs.length := by
    rw [hdescribes.mean hne, total_eq_sum]
    rfl
  have hbounds : ∀ v ∈ vs, (ofList vs).stats.min ≤ v ∧ v ≤ (ofList vs).stats.max := by
    intro v hv
    obtain ⟨hlow, hhigh⟩ := hdescribes.extremes.bounds v hv
    exact ⟨of_decide_eq_true hlow, of_decide_eq_true hhigh⟩
  refine ⟨?sum, ?low, ?high⟩
  case sum => rw [hcount, hmean, div_mul_cancel₀ _ hpos.ne']
  case low =>
    have hlow := List.card_nsmul_le_sum vs (ofList vs).stats.min fun v hv => (hbounds v hv).1
    rw [nsmul_eq_mul] at hlow
    rw [hmean, le_div_iff₀ hpos, mul_comm]
    exact hlow
  case high =>
    have hhigh := List.sum_le_card_nsmul vs (ofList vs).stats.max fun v hv => (hbounds v hv).2
    rw [nsmul_eq_mul] at hhigh
    rw [hmean, div_le_iff₀ hpos, mul_comm]
    exact hhigh

end BasRelief.Series
