import BasRelief.Proofs.Analysis.ModalRun
import BasRelief.Proofs.Analysis.SeriesExtremes

/-!
# Series of recorded segments

The invariant of a tally: its running series and its charts hold the values that the segments so
far have brought, however many segments and warnings there were. So the statistics and bounds of a
report are those of the values themselves.
-/

namespace BasRelief

namespace Words
variable {α : Type} [Scalar α]

def AreNumbers (w : Words α) : Prop := ∀ a, ∀ v ∈ w.get a, Scalar.isNumber v = true

instance (w : Words α) : Decidable w.AreNumbers :=
  decidable_of_iff (∀ a ∈ [Axis.x, .y, .z, .f], ∀ v ∈ w.get a, Scalar.isNumber v = true)
    ⟨fun h a => h a (by cases a <;> decide), fun h a _ => h a⟩

end Words

namespace Tally
variable {α : Type}

/-- What a tally is told: a segment, or how many values of a line were left out. -/
inductive Event (α : Type) where
  | segment (m : Segment α)
  | warnings (count : Nat)

def Event.segment? : Event α → Option (Segment α)
  | segment m => some m
  | warnings _ => none

/-- The segments among some events. -/
def segments (es : List (Event α)) : List (Segment α) := es.filterMap Event.segment?

variable [Scalar α]

def take (limit : Nat) (t : Tally α) : Event α → Tally α
  | .segment m => t.record limit m
  | .warnings count => t.warn count

def ofEvents (limit : Nat) (es : List (Event α)) : Tally α := es.foldl (take limit) empty

/-! ### The invariant -/

/-- The series and charts of a tally hold what some segments bring. -/
structure Holds (ms : List (Segment α)) (t : Tally α) : Prop where
  feeds : t.feeds = .ofList (ms.filterMap feed?)
  heights : t.heights = .ofList (ms.filterMap fun m => m.words.z)
  xs : t.xs = .ofList (ms.filterMap fun m => m.words.x)
  ys : t.ys = .ofList (ms.filterMap fun m => m.words.y)
  feedValues : t.feedValues = (ms.filterMap feed?).toArray
  zValues : t.zValues = (ms.filterMap fun m => m.words.z).toArray

theorem holds_empty : Holds [] (empty : Tally α) := ⟨rfl, rfl, rfl, rfl, rfl, rfl⟩

theorem Holds.record {ms : List (Segment α)} {t : Tally α} (h : Holds ms t) (limit : Nat)
    (m : Segment α) : Holds (ms ++ [m]) (t.record limit m) where
  feeds := by rw [Modal.ofList_filterMap_snoc, ← h.feeds, Tally.record]
  heights := by rw [Modal.ofList_filterMap_snoc, ← h.heights, Tally.record]
  xs := by rw [Modal.ofList_filterMap_snoc, ← h.xs, Tally.record]
  ys := by rw [Modal.ofList_filterMap_snoc, ← h.ys, Tally.record]
  feedValues := by rw [Modal.pushIf_filterMap_snoc, ← h.feedValues, Tally.record]
  zValues := by rw [Modal.pushIf_filterMap_snoc, ← h.zValues, Tally.record]

theorem Holds.warn {ms : List (Segment α)} {t : Tally α} (h : Holds ms t) (count : Nat) :
    Holds ms (t.warn count) := ⟨h.feeds, h.heights, h.xs, h.ys, h.feedValues, h.zValues⟩

theorem holds_ofEvents (limit : Nat) (es : List (Event α)) :
    Holds (segments es) (ofEvents limit es) := by
  -- from the last event, since the invariant speaks of all the segments before it
  induction es using List.reverseRecOn with
  | nil => exact holds_empty
  | append_singleton es e ih =>
    rw [segments, List.filterMap_append, ofEvents, List.foldl_append]
    cases e with
    | segment m => exact ih.record limit m
    | warnings count =>
      have hsame : segments es ++ [] = segments es := List.append_nil _
      exact hsame ▸ ih.warn count

/-! ### Values of the segments -/

theorem filterMap_feed? (ms : List (Segment α)) :
    ms.filterMap feed? = (ms.map Segment.feed).filter (Scalar.less Scalar.zero) := by
  induction ms with
  | nil => rfl
  | cons m ms ih =>
    rw [List.filterMap_cons, List.map_cons, List.filter_cons, ← ih, feed?]
    cases Scalar.less Scalar.zero m.feed <;> rfl

theorem isNumber_of_mem_words {ms : List (Segment α)} (h : ∀ m ∈ ms, m.words.AreNumbers)
    (a : Axis) : ∀ v ∈ ms.filterMap fun m => m.words.get a, Scalar.isNumber v = true := by
  intro v hv
  obtain ⟨m, hm, hword⟩ := List.mem_filterMap.1 hv
  exact h m hm a v hword

end Tally

/-! ### Reports -/

namespace AnalysisReport
variable {α : Type} [Scalar α]

/-- What the series of a report say of the segments behind it. -/
structure DescribesSegments (ms : List (Segment α)) (r : AnalysisReport α) : Prop where
  feedValues : r.chart.feeds = (ms.map Segment.feed).filter (Scalar.less Scalar.zero)
  feeds : Series.Describes r.chart.feeds r.feeds
  zValues : r.chart.zValues = ms.filterMap fun m => m.words.z
  heights : Series.Describes r.chart.zValues r.heights
  xs : Series.AreExtremes (ms.filterMap fun m => m.words.x) r.bounds.xMin r.bounds.xMax
  ys : Series.AreExtremes (ms.filterMap fun m => m.words.y) r.bounds.yMin r.bounds.yMax

theorem describesSegments_of_holds [Scalar.Lawful α] {ms : List (Segment α)} {t : Tally α}
    (h : t.Holds ms) (feeds : ∀ v ∈ ms.filterMap Tally.feed?, Scalar.isNumber v = true)
    (words : ∀ m ∈ ms, m.words.AreNumbers) (linesRead : Nat) :
    (t.report linesRead).DescribesSegments ms where
  feedValues := by rw [Tally.report, h.feedValues, Tally.filterMap_feed?]
  feeds := by
    rw [Tally.report, h.feedValues, h.feeds]
    exact Series.describes_stats feeds
  zValues := by rw [Tally.report, h.zValues]
  heights := by
    rw [Tally.report, h.zValues, h.heights]
    exact Series.describes_stats (Tally.isNumber_of_mem_words words .z)
  xs := by
    rw [Tally.report, h.xs]
    exact Series.areExtremes_stats (Tally.isNumber_of_mem_words words .x)
  ys := by
    rw [Tally.report, h.ys]
    exact Series.areExtremes_stats (Tally.isNumber_of_mem_words words .y)

end AnalysisReport

/-- A feed above zero is a number, so only words can be anything else. -/
theorem Double.isNumber_of_mem_feeds {ms : List (Segment Float)} :
    ∀ v ∈ ms.filterMap Tally.feed?, Scalar.isNumber v = true := by
  intro v hv
  rw [Tally.filterMap_feed?] at hv
  exact (isNumber_of_less (List.mem_filter.1 hv).2).2

/-- The statistics and bounds of a report are those of the values that the segments brought; in
exact arithmetic the mean is the sum over the count and lies between the extremes. -/
theorem reported_extremes (limit linesRead : Nat) :
    (∀ es : List (Tally.Event Float), (∀ m ∈ Tally.segments es, m.words.AreNumbers) →
      ((Tally.ofEvents limit es).report linesRead).DescribesSegments (Tally.segments es)) ∧
    ∀ es : List (Tally.Event Rat),
      let r := (Tally.ofEvents limit es).report linesRead
      r.DescribesSegments (Tally.segments es) ∧ Series.HasMean r.chart.feeds r.feeds ∧
        Series.HasMean r.chart.zValues r.heights := by
  constructor
  · intro es words
    exact AnalysisReport.describesSegments_of_holds (Tally.holds_ofEvents limit es)
      Double.isNumber_of_mem_feeds words linesRead
  · intro es
    have hholds := Tally.holds_ofEvents limit es
    refine ⟨?describes, ?feeds, ?heights⟩
    case describes =>
      exact AnalysisReport.describesSegments_of_holds hholds (fun _ _ => rfl)
        (fun _ _ _ _ _ => rfl) linesRead
    case feeds =>
      dsimp only [Tally.report]
      rw [hholds.feedValues, hholds.feeds]
      exact Series.hasMean_stats _
    case heights =>
      dsimp only [Tally.report]
      rw [hholds.zValues, hholds.heights]
      exact Series.hasMean_stats _

/-- Two cuts below the surface, a warning between them, and a line without a word. -/
def sinkingEvents : List (Tally.Event Float) :=
  let cut (words : Words Float) : Tally.Event Float :=
    .segment ⟨1, some 1, some .cut, Scalar.one, Scalar.one, words.f.getD Scalar.zero, true, words,
      ⟨Scalar.zero, Scalar.zero, words.z.getD Scalar.zero⟩⟩
  [cut { z := some (-Scalar.natural 3), f := some (Scalar.natural 60) }, .warnings 2,
   cut { y := some Double.infinity, z := some (-Scalar.one) }, cut {}]

theorem sinkingEvents_extremes :
    (∀ m ∈ Tally.segments sinkingEvents, m.words.AreNumbers) ∧
      ((Tally.ofEvents 5 sinkingEvents).report 4).DescribesSegments
        (Tally.segments sinkingEvents) ∧
      ((Tally.ofEvents 5 sinkingEvents).report 4).heights =
        ⟨-Scalar.one, -Scalar.natural 3, -Scalar.natural 2, 2⟩ ∧
      ((Tally.ofEvents 5 sinkingEvents).report 4).bounds =
        ⟨Scalar.zero, Scalar.zero, Double.infinity, Double.infinity⟩ := by
  have words : ∀ m ∈ Tally.segments sinkingEvents, m.words.AreNumbers := by decide +kernel
  exact ⟨words, (reported_extremes 5 4).1 sinkingEvents words, by decide +kernel, by decide +kernel⟩

end BasRelief
