import BasRelief.Proofs.Analysis.SeriesRange
import BasRelief.Proofs.Analysis.Statements
import BasRelief.Proofs.Number.Counts

/-!
# Reports of finite numbers

The numbers of a report are finite just where the program stays in range: its X and Y values are
finite, the moves that count have a finite length, and the sums of cut times, feeds and Z values do
not overflow. Moderate values keep a program of any length in range.
-/

namespace BasRelief
open Gcode Double

/-! ### The doubles of a report -/

def MotionSummary.doubles (s : MotionSummary Float) : List Float :=
  [s.cutDistance, s.cutTime, s.rapidDistance]

def SeriesStats.doubles (s : SeriesStats Float) : List Float := [s.max, s.min, s.mean]

def PlaneBounds.doubles (b : PlaneBounds Float) : List Float := [b.xMin, b.xMax, b.yMin, b.yMax]

def ChartSeries.doubles (c : ChartSeries Float) : List Float :=
  c.feeds ++ c.zValues ++ c.trajectory.flatMap fun (x, y) => [x, y]

namespace AnalysisReport

def doubles (r : AnalysisReport Float) : List Float :=
  r.summary.doubles ++ r.feeds.doubles ++ r.heights.doubles ++ r.bounds.doubles ++ r.chart.doubles

def IsFinite (r : AnalysisReport Float) : Prop := ∀ x ∈ r.doubles, Scalar.isFinite x = true

instance (r : AnalysisReport Float) : Decidable r.IsFinite :=
  inferInstanceAs (Decidable (∀ x ∈ r.doubles, Scalar.isFinite x = true))

end AnalysisReport

namespace Modal

/-- What keeps the numbers of a program in the range of doubles. -/
structure InRange (tolerance : Float) (ts : List (Token Float)) : Prop where
  xs : ∀ t ∈ ts, ∀ v ∈ t.words.x, Scalar.isFinite v = true
  ys : ∀ t ∈ ts, ∀ v ∈ t.words.y, Scalar.isFinite v = true
  rapids : ∀ m ∈ moves tolerance 0 ts, Scalar.isFinite m.distance = true
  cuts : ∀ m ∈ moves tolerance 1 ts, Scalar.isFinite m.distance = true
  cutTime : Scalar.isFinite (total ((moves tolerance 1 ts).map Moment.seconds)) = true
  feedSum : Scalar.isFinite (total (feeds ts)) = true
  heightSum : Scalar.isFinite (total (ts.filterMap fun t => t.words.z)) = true

/-! ### Values at a moment -/

theorem lastValue_of_all {p : Float → Prop} (zero : p Scalar.zero) {a : Axis}
    {ts : List (Token Float)} (all : ∀ t ∈ ts, ∀ v ∈ t.words.get a, p v) : p (lastValue a ts) := by
  induction ts using List.reverseRecOn with
  | nil => exact zero
  | append_singleton ts t ih =>
    rw [lastValue_snoc]
    cases hv : t.words.get a with
    | none => exact ih fun u hu => all u (List.mem_append_left _ hu)
    | some v => exact all t (List.mem_append_right _ List.mem_cons_self) v hv

/-- A moment has seen tokens of the program only. -/
theorem subset_of_mem_moments {m : Moment Float} {ts : List (Token Float)}
    (h : m ∈ moments ts) : m.before ⊆ ts ∧ m.upTo ⊆ ts := by
  induction ts using List.reverseRecOn with
  | nil => simp [moments] at h
  | append_singleton ts t ih =>
    rw [moments_snoc] at h
    obtain h | h := List.mem_append.1 h
    · obtain ⟨hbefore, hupTo⟩ := ih h
      exact ⟨List.subset_append_of_subset_left _ hbefore,
        List.subset_append_of_subset_left _ hupTo⟩
    · obtain rfl := List.eq_of_mem_singleton h
      exact ⟨List.subset_append_left _ _, List.Subset.refl _⟩

theorem values_of_moment {p : Float → Prop} (zero : p Scalar.zero) {a : Axis}
    {ts : List (Token Float)} (all : ∀ t ∈ ts, ∀ v ∈ t.words.get a, p v) {m : Moment Float}
    (h : m ∈ moments ts) : p (lastValue a m.before) ∧ p (lastValue a m.upTo) := by
  obtain ⟨hbefore, hupTo⟩ := subset_of_mem_moments h
  exact ⟨lastValue_of_all zero fun t ht => all t (hbefore ht),
    lastValue_of_all zero fun t ht => all t (hupTo ht)⟩

end Modal

/-! ### Values are numbers -/

theorem Double.isNumber_ofNumeral (n : Numeral) :
    Scalar.isNumber (Scalar.ofNumeral n : Float) = true := by
  cases rounds_numeral n with
  | finite value near => exact isNumber_of_value? value
  | overflow infinite sign large =>
    rw [isNumber_iff]
    intro hnot
    cases infinite.symm.trans hnot

namespace Gcode

theorem isNumber_foldl_assign (os : List Occurrence) {w : Words Float}
    (h : ∀ a, ∀ v ∈ w.get a, Scalar.isNumber v = true) (a : Axis) :
    ∀ v ∈ (os.foldl Occurrence.assign w).get a, Scalar.isNumber v = true := by
  induction os generalizing w with
  | nil => exact h a
  | cons o os ih =>
    refine ih fun b v hv => ?_
    unfold Occurrence.assign Occurrence.value? at hv
    cases hread : Numeral.read? o.text with
    | none =>
      rw [hread] at hv
      exact h b v hv
    | some n =>
      rw [hread] at hv
      simp only [Option.map_some, Words.get_set] at hv
      split at hv
      · rw [← Option.some.inj hv]
        exact isNumber_ofNumeral n
      · exact h b v hv

theorem isNumber_of_read {number : Nat} {line : List Char} {t : Token Float}
    (h : Token.read? number line = some t) (a : Axis) :
    ∀ v ∈ t.words.get a, Scalar.isNumber v = true := by
  simp only [Token.read?] at h
  split at h
  · cases h
  · cases h
    exact isNumber_foldl_assign _ (fun b v hv => by cases b <;> cases hv) a

end Gcode

/-! ### Reports and ranges -/

namespace Modal
open Series

theorem isNumber_of_mem_statements {ls : List (List Char)} {t : Token Float}
    (h : t ∈ statements ls) (a : Axis) : ∀ v ∈ t.words.get a, Scalar.isNumber v = true := by
  obtain ⟨line, -, hread⟩ := List.mem_filterMap.1 h
  exact isNumber_of_read hread a

/-- A distance is finite only if it is far below the greatest double. -/
theorem within_distance {m : Moment Float} (h : Scalar.isFinite m.distance = true) :
    Within (2 ^ (513 : Int)) m.distance := within_root h

theorem isFinite_totalDistance_iff (tolerance : Float) (n : Nat) (ts : List (Token Float)) :
    Scalar.isFinite (total ((moves tolerance n ts).map Moment.distance)) = true ↔
      ∀ m ∈ moves tolerance n ts, Scalar.isFinite m.distance = true := by
  constructor
  · exact fun h m hm => isFinite_of_total h _ (List.mem_map_of_mem hm)
  · intro h
    refine isFinite_total (show (513 : Int) < 970 by decide) fun v hv => ?_
    obtain ⟨m, hm, rfl⟩ := List.mem_map.1 hv
    exact within_distance (h m hm)

theorem isFinite_stats_iff (vs : List Float) :
    (∀ x ∈ (ofList vs).stats.doubles, Scalar.isFinite x = true) ↔
      Scalar.isFinite (total vs) = true := by
  simp only [SeriesStats.doubles, List.forall_mem_cons, List.not_mem_nil, false_imp_iff,
    implies_true, and_true, isFinite_mean_iff, (extremes_stats vs).1, (extremes_stats vs).2]
  refine ⟨fun h => h.2.2, fun h => ?_⟩
  obtain ⟨hmax, hmin⟩ := extremes_of_all ((isFinite_iff _).2 ⟨0, value?_zero⟩)
    (isFinite_of_total h)
  exact ⟨hmax, hmin, h⟩

theorem isFinite_bounds_iff {vs : List Float} (numbers : ∀ v ∈ vs, Scalar.isNumber v = true) :
    (Scalar.isFinite (ofList vs).stats.min = true ∧ Scalar.isFinite (ofList vs).stats.max = true) ↔
      ∀ v ∈ vs, Scalar.isFinite v = true := by
  rw [(extremes_stats vs).1, (extremes_stats vs).2]
  refine ⟨fun ⟨hmin, hmax⟩ => all_finite_of_extremes numbers hmax hmin, fun h => ?_⟩
  exact (extremes_of_all ((isFinite_iff _).2 ⟨0, value?_zero⟩) h).symm

theorem isFinite_axis_iff {a : Axis} {ts : List (Token Float)}
    (numbers : ∀ t ∈ ts, ∀ v ∈ t.words.get a, Scalar.isNumber v = true) :
    (Scalar.isFinite (ofList (ts.filterMap fun t => t.words.get a)).stats.min = true ∧
        Scalar.isFinite (ofList (ts.filterMap fun t => t.words.get a)).stats.max = true) ↔
      ∀ t ∈ ts, ∀ v ∈ t.words.get a, Scalar.isFinite v = true := by
  have hmem {p : Float → Prop} : (∀ v ∈ ts.filterMap fun t => t.words.get a, p v) ↔
      ∀ t ∈ ts, ∀ v ∈ t.words.get a, p v := by
    simp only [List.mem_filterMap, forall_exists_index, and_imp]
    exact ⟨fun h t ht v hv => h v t ht hv, fun h v t ht hv => h t ht v hv⟩
  rw [isFinite_bounds_iff (hmem.2 numbers), hmem]

theorem isFinite_points {ts : List (Token Float)}
    (xs : ∀ t ∈ ts, ∀ v ∈ t.words.x, Scalar.isFinite v = true)
    (ys : ∀ t ∈ ts, ∀ v ∈ t.words.y, Scalar.isFinite v = true) {p : Float × Float}
    (hp : p ∈ points ts) : Scalar.isFinite p.1 = true ∧ Scalar.isFinite p.2 = true := by
  obtain ⟨m, hm, rfl⟩ := List.mem_map.1 hp
  have hzero : Scalar.isFinite (Scalar.zero : Float) = true := (isFinite_iff _).2 ⟨0, value?_zero⟩
  have hmoment := (List.mem_filter.1 hm).1
  exact ⟨(values_of_moment (p := (Scalar.isFinite · = true)) (a := .x) hzero xs hmoment).2,
    (values_of_moment (p := (Scalar.isFinite · = true)) (a := .y) hzero ys hmoment).2⟩

/-- The charts show nothing that the rest of the report leaves out. -/
theorem isFinite_chart {limits : AnalysisLimits Float} {lineCount : Nat}
    {ts : List (Token Float)} (h : InRange limits.tolerance ts) :
    ∀ x ∈ (report limits lineCount ts).chart.doubles, Scalar.isFinite x = true := by
  intro x hx
  obtain hx | hx := List.mem_append.1 hx
  · obtain hx | hx := List.mem_append.1 hx
    · exact isFinite_of_total h.feedSum x hx
    · exact isFinite_of_total h.heightSum x hx
  · obtain ⟨p, hp, hx⟩ := List.mem_flatMap.1 hx
    obtain ⟨hfirst, hsecond⟩ := isFinite_points h.xs h.ys (List.mem_of_mem_take hp)
    obtain rfl | hx := List.mem_cons.1 hx
    · exact hfirst
    · rw [List.eq_of_mem_singleton hx]
      exact hsecond

/-- The numbers of a report are finite just where the program stays in range. -/
theorem report_isFinite_iff (limits : AnalysisLimits Float) (lineCount : Nat)
    {ts : List (Token Float)}
    (numbers : ∀ t ∈ ts, ∀ a, ∀ v ∈ t.words.get a, Scalar.isNumber v = true) :
    (report limits lineCount ts).IsFinite ↔ InRange limits.tolerance ts := by
  have hxs := isFinite_axis_iff fun t ht => numbers t ht .x
  have hys := isFinite_axis_iff fun t ht => numbers t ht .y
  have hfeeds := isFinite_stats_iff (feeds ts)
  have hheights := isFinite_stats_iff (ts.filterMap fun t => t.words.z)
  have hrapids := isFinite_totalDistance_iff limits.tolerance 0 ts
  have hcuts := isFinite_totalDistance_iff limits.tolerance 1 ts
  simp only [AnalysisReport.IsFinite, AnalysisReport.doubles, List.forall_mem_append]
  constructor
  · rintro ⟨⟨⟨⟨hsummary, hf⟩, hh⟩, hbounds⟩, -⟩
    simp only [MotionSummary.doubles, List.forall_mem_cons] at hsummary
    simp only [PlaneBounds.doubles, List.forall_mem_cons] at hbounds
    exact ⟨hxs.1 ⟨hbounds.1, hbounds.2.1⟩, hys.1 ⟨hbounds.2.2.1, hbounds.2.2.2.1⟩,
      hrapids.1 hsummary.2.2.1, hcuts.1 hsummary.1, hsummary.2.1, hfeeds.1 hf, hheights.1 hh⟩
  · intro h
    obtain ⟨hxMin, hxMax⟩ := hxs.2 h.xs
    obtain ⟨hyMin, hyMax⟩ := hys.2 h.ys
    refine ⟨⟨⟨⟨?_, hfeeds.2 h.feedSum⟩, hheights.2 h.heightSum⟩, ?_⟩, isFinite_chart h⟩
    · simp only [MotionSummary.doubles, List.forall_mem_cons]
      exact ⟨hcuts.2 h.cuts, h.cutTime, hrapids.2 h.rapids, fun x hx => nomatch hx⟩
    · simp only [PlaneBounds.doubles, List.forall_mem_cons]
      exact ⟨hxMin, hxMax, hyMin, hyMax, fun x hx => nomatch hx⟩

end Modal
end BasRelief
