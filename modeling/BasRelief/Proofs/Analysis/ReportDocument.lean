import BasRelief.Analysis.Codec
import BasRelief.Proofs.Analysis.FiniteReport
import BasRelief.Proofs.Analysis.WordCounts
import BasRelief.Proofs.Document.Json.Nulls
import BasRelief.Proofs.Results

/-!
# Reports as JSON documents

Null stands in the document of a report for each number that is not finite, and for nothing else. A
report whose counts fit in 64 bits is decoded with each of its doubles as it is read on its own.
-/

namespace BasRelief
open Document Document.Json

/-! ### Doubles replaced -/

section
variable {ε : Type} (f : Float → Except ε Float)

def MotionSummary.mapDoubles (s : MotionSummary Float) : Except ε (MotionSummary Float) := do
  return { s with
    cutDistance := ← f s.cutDistance, cutTime := ← f s.cutTime
    rapidDistance := ← f s.rapidDistance }

def SeriesStats.mapDoubles (s : SeriesStats Float) : Except ε (SeriesStats Float) := do
  return ⟨← f s.max, ← f s.min, ← f s.mean, s.count⟩

def PlaneBounds.mapDoubles (b : PlaneBounds Float) : Except ε (PlaneBounds Float) := do
  return ⟨← f b.xMin, ← f b.xMax, ← f b.yMin, ← f b.yMax⟩

def ChartSeries.mapDoubles (c : ChartSeries Float) : Except ε (ChartSeries Float) := do
  return ⟨← c.feeds.mapM f, ← c.zValues.mapM f,
    ← c.trajectory.mapM fun (x, y) => do return (← f x, ← f y)⟩

/-- The report with every double replaced, or the first error on the way. -/
def AnalysisReport.mapDoubles (r : AnalysisReport Float) : Except ε (AnalysisReport Float) := do
  return ⟨← r.summary.mapDoubles f, ← r.feeds.mapDoubles f, ← r.heights.mapDoubles f,
    ← r.bounds.mapDoubles f, ← r.chart.mapDoubles f⟩

variable {f}

theorem MotionSummary.exists_mapDoubles_iff (s : MotionSummary Float) :
    (∃ s', s.mapDoubles f = .ok s') ↔ ∀ x ∈ s.doubles, ∃ y, f x = .ok y := by
  simp only [mapDoubles, doubles, exists_bind_eq_ok_iff, exists_pure_eq_ok, and_true,
    exists_and_right, List.forall_mem_cons, List.not_mem_nil, false_imp_iff, implies_true]

theorem SeriesStats.exists_mapDoubles_iff (s : SeriesStats Float) :
    (∃ s', s.mapDoubles f = .ok s') ↔ ∀ x ∈ s.doubles, ∃ y, f x = .ok y := by
  simp only [mapDoubles, doubles, exists_bind_eq_ok_iff, exists_pure_eq_ok, and_true,
    exists_and_right, List.forall_mem_cons, List.not_mem_nil, false_imp_iff, implies_true]

theorem PlaneBounds.exists_mapDoubles_iff (b : PlaneBounds Float) :
    (∃ b', b.mapDoubles f = .ok b') ↔ ∀ x ∈ b.doubles, ∃ y, f x = .ok y := by
  simp only [mapDoubles, doubles, exists_bind_eq_ok_iff, exists_pure_eq_ok, and_true,
    exists_and_right, List.forall_mem_cons, List.not_mem_nil, false_imp_iff, implies_true]

theorem ChartSeries.exists_mapDoubles_iff (c : ChartSeries Float) :
    (∃ c', c.mapDoubles f = .ok c') ↔ ∀ x ∈ c.doubles, ∃ y, f x = .ok y := by
  simp only [mapDoubles, doubles, exists_bind_eq_ok_iff, exists_pure_eq_ok, and_true,
    exists_and_right, exists_mapM_eq_ok_iff, List.forall_mem_append, List.forall_mem_flatMap,
    List.forall_mem_cons, List.not_mem_nil, false_imp_iff, implies_true, and_assoc]

theorem AnalysisReport.exists_mapDoubles_iff (r : AnalysisReport Float) :
    (∃ r', r.mapDoubles f = .ok r') ↔ ∀ x ∈ r.doubles, ∃ y, f x = .ok y := by
  simp only [mapDoubles, doubles, exists_bind_eq_ok_iff, exists_pure_eq_ok, and_true,
    exists_and_right, MotionSummary.exists_mapDoubles_iff, SeriesStats.exists_mapDoubles_iff,
    PlaneBounds.exists_mapDoubles_iff, ChartSeries.exists_mapDoubles_iff,
    List.forall_mem_append, and_assoc]

end

/-! ### Counts -/

namespace WordCounts

/-- A word that comes after all others goes to the end. -/
theorem put_last {c : WordCounts} {w : String} (h : ∀ v ∈ c.map Prod.fst, v < w) (n : Nat) :
    c.put w n = c ++ [(w, n)] := by
  induction c with
  | nil => rfl
  | cons e c ih =>
    obtain ⟨v, m⟩ := e
    have hlt : v < w := h v List.mem_cons_self
    have hne : w ≠ v := fun heq => String.lt_irrefl v (heq ▸ hlt)
    have hnot : ¬w < v := fun hgt => String.lt_irrefl v (String.lt_trans hlt hgt)
    rw [put, if_neg hne, if_neg hnot, ih fun u hu => h u (List.mem_cons_of_mem _ hu),
      List.cons_append]

/-- One entry more, as the counts are decoded one by one. -/
def takeEntry (d : Dialect) (counts : WordCounts) :
    Option String × Value → Except DecodeError WordCounts
  | (some word, v) => (Decoder.natural d v).map fun n => put word n counts
  | (none, _) => .error (.expected "key")

theorem ofValue_table (d : Dialect) (closed : Bool) (entries : List (Option String × Value)) :
    ofValue d (.table closed entries) = entries.foldlM (takeEntry d) [] := by
  unfold ofValue
  dsimp only
  congr
  funext counts e
  obtain ⟨key, v⟩ := e
  cases key <;> rfl

theorem foldlM_takeEntry {c : WordCounts} (fits : ∀ e ∈ c, e.2 < wordSize) (done : WordCounts)
    (ordered : Ordered (done ++ c)) :
    (c.map fun e => (some e.1, reread (.natural e.2))).foldlM (takeEntry .json) done =
      .ok (done ++ c) := by
  induction c generalizing done with
  | nil => rw [List.append_nil]; rfl
  | cons e c ih =>
    obtain ⟨word, n⟩ := e
    have hbelow : ∀ v ∈ done.map Prod.fst, v < word := by
      rw [Ordered, List.map_append, List.pairwise_append] at ordered
      exact fun v hv => ordered.2.2 v hv word List.mem_cons_self
    have hassoc : done ++ (word, n) :: c = done ++ [(word, n)] ++ c := by simp
    have hentry : takeEntry .json done (some word, reread (.natural n)) =
        .ok (done ++ [(word, n)]) := by
      rw [takeEntry, natural_reread (fits _ List.mem_cons_self)]
      show Except.ok (put word n done) = _
      rw [put_last hbelow]
    rw [List.map_cons, List.foldlM_cons, hentry]
    rw [hassoc] at ordered ⊢
    exact ih (fun e he => fits e (List.mem_cons_of_mem _ he)) _ ordered

theorem ofValue_reread {c : WordCounts} (ordered : c.Ordered) (fits : ∀ e ∈ c, e.2 < wordSize) :
    ofValue .json (reread c.toValue) = .ok c := by
  rw [toValue, reread_record, shownTable, ofValue_table, List.map_map]
  exact foldlM_takeEntry fits [] ordered

end WordCounts

/-- Counts that fit in 64 bits, as those of any program do that fits into memory. -/
structure MotionSummary.Fits (s : MotionSummary Float) : Prop where
  linesRead : s.linesRead < wordSize
  processedLines : s.processedLines < wordSize
  rapidMoves : s.rapidMoves < wordSize
  cutMoves : s.cutMoves < wordSize
  warnings : s.warnings < wordSize
  ordered : s.gWordCounts.Ordered
  gWords : ∀ e ∈ s.gWordCounts, e.2 < wordSize

structure AnalysisReport.Fits (r : AnalysisReport Float) : Prop where
  summary : r.summary.Fits
  feeds : r.feeds.count < wordSize
  heights : r.heights.count < wordSize

/-! ### Decoding -/

theorem ChartSeries.mapM_pair (ps : List (Float × Float)) :
    Decoder.list (.pair .float .float) .json
        (reread (.array (ps.map fun (x, y) => .array [.float x, .float y]))) =
      ps.mapM fun (x, y) => do return (← readDouble x, ← readDouble y) := by
  rw [reread_array, List.map_map]
  show (ps.map _).mapM (Decoder.pair .float .float .json) = _
  rw [List.mapM_map]
  rfl

theorem of_reread {fields : List Field} {entries : List (String × Value)}
    (hkeys : entries.map Prod.fst = fields.map Field.key)
    (hown : Record.AreOwn fields (fields.map Field.key)) (hnodup : (fields.map Field.key).Nodup) :
    Record.of fields .json (reread (.record entries)) = .ok (shownRecord reread entries) := by
  rw [reread_record]
  exact of_shownTable (hkeys ▸ hown) (hkeys ▸ hnodup) .json true reread

theorem SeriesStats.ofValue_reread {s : SeriesStats Float} (h : s.count < wordSize) :
    ofValue .json (reread s.toValue) = s.mapDoubles readDouble := by
  unfold ofValue toValue
  rw [of_reread rfl (by decide) (by decide)]
  show Except.bind _ _ = _
  simp only [Except.bind, required_shown_cons, String.reduceEq, reduceIte, natural_reread h]
  rfl

theorem PlaneBounds.ofValue_reread (b : PlaneBounds Float) :
    ofValue .json (reread b.toValue) = b.mapDoubles readDouble := by
  unfold ofValue toValue
  rw [of_reread rfl (by decide) (by decide)]
  show Except.bind _ _ = _
  simp only [Except.bind, required_shown_cons, String.reduceEq, reduceIte]
  rfl

theorem MotionSummary.ofValue_reread {s : MotionSummary Float} (h : s.Fits) :
    ofValue .json (reread s.toValue) = s.mapDoubles readDouble := by
  unfold ofValue toValue
  rw [of_reread rfl (by decide) (by decide)]
  show Except.bind _ _ = _
  simp only [Except.bind, required_shown_cons, String.reduceEq, reduceIte,
    natural_reread h.linesRead, natural_reread h.processedLines, natural_reread h.rapidMoves,
    natural_reread h.cutMoves, natural_reread h.warnings,
    WordCounts.ofValue_reread h.ordered h.gWords]
  rfl

theorem ChartSeries.ofValue_reread (c : ChartSeries Float) :
    ofValue .json (reread c.toValue) = c.mapDoubles readDouble := by
  unfold ofValue toValue
  rw [of_reread rfl (by decide) (by decide)]
  show Except.bind _ _ = _
  simp only [Except.bind, required_shown_cons, String.reduceEq, reduceIte, mapM_float, mapM_pair]
  rfl

/-- A report is decoded with each of its doubles as it is read on its own. -/
theorem AnalysisReport.ofValue_reread {r : AnalysisReport Float} (h : r.Fits) :
    ofValue .json (reread r.toValue) = r.mapDoubles readDouble := by
  unfold ofValue toValue
  rw [of_reread rfl (by decide) (by decide)]
  show Except.bind _ _ = _
  simp only [Except.bind, required_shown_cons, String.reduceEq, reduceIte,
    MotionSummary.ofValue_reread h.summary, SeriesStats.ofValue_reread h.feeds,
    SeriesStats.ofValue_reread h.heights, PlaneBounds.ofValue_reread, ChartSeries.ofValue_reread]
  rfl

theorem AnalysisReport.decodes_iff {r : AnalysisReport Float} (h : r.Fits) :
    (∃ r', ofValue .json (reread r.toValue) = .ok r') ↔ r.IsFinite := by
  rw [ofValue_reread h, exists_mapDoubles_iff]
  simp only [exists_readDouble_iff]
  rfl

/-! ### Nulls -/

theorem WordCounts.nulls_reread {c : WordCounts} (h : ∀ e ∈ c, e.2 < wordSize) :
    (reread c.toValue).nulls = 0 := by
  rw [toValue, nulls_record, List.map_map, List.sum_eq_zero_iff]
  intro n hn
  obtain ⟨e, he, rfl⟩ := List.mem_map.1 hn
  exact nulls_natural (h e he)

theorem MotionSummary.nulls_reread {s : MotionSummary Float} (h : s.Fits) :
    (reread s.toValue).nulls = notFinite s.doubles := by
  simp only [toValue, doubles, nulls_record, notFinite_cons, List.map_cons, List.sum_cons,
    nulls_natural h.linesRead, nulls_natural h.processedLines, nulls_natural h.rapidMoves,
    nulls_natural h.cutMoves, nulls_natural h.warnings, WordCounts.nulls_reread h.gWords,
    Nat.zero_add]
  rfl

theorem SeriesStats.nulls_reread {s : SeriesStats Float} (h : s.count < wordSize) :
    (reread s.toValue).nulls = notFinite s.doubles := by
  simp only [toValue, doubles, nulls_record, notFinite_cons, List.map_cons, List.sum_cons,
    nulls_natural h]
  rfl

theorem PlaneBounds.nulls_reread (b : PlaneBounds Float) :
    (reread b.toValue).nulls = notFinite b.doubles := by
  simp only [toValue, doubles, nulls_record, notFinite_cons, List.map_cons, List.sum_cons]
  rfl

theorem ChartSeries.nulls_reread (c : ChartSeries Float) :
    (reread c.toValue).nulls = notFinite c.doubles := by
  have hpoints (ps : List (Float × Float)) :
      (reread (.array (ps.map fun (x, y) => .array [.float x, .float y]))).nulls =
        notFinite (ps.flatMap fun (x, y) => [x, y]) := by
    rw [nulls_array, List.map_map]
    induction ps with
    | nil => rfl
    | cons p ps ih =>
      rw [List.map_cons, List.sum_cons, ih, List.flatMap_cons, notFinite_append,
        ← nulls_floats [p.1, p.2]]
      rfl
  simp only [toValue, doubles, nulls_record, List.map_cons, List.sum_cons, nulls_floats, hpoints,
    notFinite_append, Nat.add_assoc]
  rfl

/-- Null is written for each double that is not finite, and for nothing else. -/
theorem AnalysisReport.nulls_reread {r : AnalysisReport Float} (h : r.Fits) :
    (reread r.toValue).nulls = notFinite r.doubles := by
  simp only [toValue, doubles, nulls_record, notFinite_append, List.map_cons, List.sum_cons,
    MotionSummary.nulls_reread h.summary, SeriesStats.nulls_reread h.feeds,
    SeriesStats.nulls_reread h.heights, PlaneBounds.nulls_reread, ChartSeries.nulls_reread,
    Nat.add_assoc]
  rfl

end BasRelief
