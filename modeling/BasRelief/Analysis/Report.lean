import BasRelief.Analysis.Series

/-!
# Analysis reports

What is told about a program: counts, lengths and times, the extremes of its feeds and
coordinates, and the series for charts.
-/

namespace BasRelief

/-- How often each G word occurs, in the order of the words (`g_word_counts`). -/
abbrev WordCounts := List (String × Nat)

namespace WordCounts

def add (word : String) : WordCounts → WordCounts
  | [] => [(word, 1)]
  | (w, n) :: rest =>
    if word = w then (w, n + 1) :: rest
    else if word < w then (word, 1) :: (w, n) :: rest
    else (w, n) :: add word rest

def count (word : String) (c : WordCounts) : Nat := (c.lookup word).getD 0

/-- More frequent words come first, and equally frequent ones in the order of the words. -/
def ranksBefore (a b : String × Nat) : Bool :=
  if a.2 = b.2 then a.1 ≤ b.1 else b.2 < a.2

def top (n : Nat) (c : WordCounts) : List (String × Nat) := (c.mergeSort ranksBefore).take n

theorem length_top (n : Nat) (c : WordCounts) : (top n c).length = min n c.length := by
  simp [top, List.length_mergeSort]

end WordCounts

structure MotionSummary (α : Type) where
  linesRead : Nat
  processedLines : Nat
  rapidMoves : Nat
  cutMoves : Nat
  gWordCounts : WordCounts
  cutDistance : α
  cutTime : α
  rapidDistance : α
  warnings : Nat
  deriving DecidableEq, Repr

structure PlaneBounds (α : Type) where
  xMin : α
  xMax : α
  yMin : α
  yMax : α
  deriving DecidableEq, Repr

namespace PlaneBounds
variable {α : Type} [Scalar α]

def width (b : PlaneBounds α) : α := b.xMax - b.xMin

def height (b : PlaneBounds α) : α := b.yMax - b.yMin

end PlaneBounds

structure ChartSeries (α : Type) where
  feeds : List α
  zValues : List α
  trajectory : List (α × α)
  deriving DecidableEq, Repr

structure AnalysisReport (α : Type) where
  summary : MotionSummary α
  feeds : SeriesStats α
  heights : SeriesStats α
  bounds : PlaneBounds α
  chart : ChartSeries α
  deriving DecidableEq, Repr

namespace AnalysisReport
variable {α : Type} [Scalar α]

def cutMinutes (r : AnalysisReport α) : α := r.summary.cutTime / Scalar.natural 60

def cutMeters (r : AnalysisReport α) : α := r.summary.cutDistance / Scalar.natural 1000

def rapidMeters (r : AnalysisReport α) : α := r.summary.rapidDistance / Scalar.natural 1000

/-- The most frequent G words (`top_g_words`). -/
def topGWords (n : Nat) (r : AnalysisReport α) : List (String × Nat) := r.summary.gWordCounts.top n

/-! ### Text -/

def padWord (word : String) : String :=
  word ++ String.ofList (List.replicate (6 - word.toList.length) ' ')

def seriesText (places meanPlaces : Nat) (s : SeriesStats α) : String :=
  "max " ++ Scalar.fixed places s.max ++ "  min " ++ Scalar.fixed places s.min ++ "  mean " ++
    Scalar.fixed meanPlaces s.mean

def rangeText (low high : α) : String := Scalar.fixed 3 low ++ " .. " ++ Scalar.fixed 3 high

def topLines (r : AnalysisReport α) : List String :=
  match r.topGWords 5 with
  | [] => []
  | top => "" :: "Most frequent G-words:" ::
      top.map fun (word, count) => "  " ++ padWord word ++ " " ++ Decimal.natText count

def textLines (r : AnalysisReport α) : List String :=
  let s := r.summary
  ["=== Program analysis ===",
   "Lines read:        " ++ Decimal.natText s.linesRead,
   "Lines processed:   " ++ Decimal.natText s.processedLines,
   "Rapid moves (G0):  " ++ Decimal.natText s.rapidMoves,
   "Cut moves (G1):    " ++ Decimal.natText s.cutMoves] ++
  (if 0 < s.warnings then ["Warnings:          " ++ Decimal.natText s.warnings] else []) ++
  ["",
   "Cutting time:      " ++ Scalar.fixed 2 r.cutMinutes ++ " min",
   "Cutting distance:  " ++ Scalar.fixed 3 r.cutMeters ++ " m",
   "Rapid distance:    " ++ Scalar.fixed 3 r.rapidMeters ++ " m",
   "",
   "Feed (mm/min):     " ++ seriesText 0 1 r.feeds,
   "Z (mm):            " ++ seriesText 3 3 r.heights,
   "X range (mm):      " ++ rangeText r.bounds.xMin r.bounds.xMax,
   "Y range (mm):      " ++ rangeText r.bounds.yMin r.bounds.yMax] ++ r.topLines

/-- The report as it is printed (`Display`). -/
def text (r : AnalysisReport α) : String := String.join (r.textLines.map (· ++ "\n"))

end AnalysisReport
end BasRelief
