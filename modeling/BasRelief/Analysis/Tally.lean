import BasRelief.Analysis.Report
import BasRelief.Machine.State
import BasRelief.Number.Word

/-!
# Tally

The sums, extremes and series of the segments that a program has gone through so far.
-/

namespace BasRelief

/-- The sums and series of a `StatisticsAggregator`. -/
structure Tally (α : Type) where
  processed : Nat
  rapidMoves : Nat
  cutMoves : Nat
  gWords : WordCounts
  cutDistance : α
  cutTime : α
  rapidDistance : α
  warnings : Nat
  feeds : Series α
  heights : Series α
  xs : Series α
  ys : Series α
  feedValues : Array α
  zValues : Array α
  trajectory : Array (α × α)

namespace Tally
variable {α : Type} [Scalar α]

def empty : Tally α where
  processed := 0
  rapidMoves := 0
  cutMoves := 0
  gWords := []
  cutDistance := Scalar.zero
  cutTime := Scalar.zero
  rapidDistance := Scalar.zero
  warnings := 0
  feeds := .empty
  heights := .empty
  xs := .empty
  ys := .empty
  feedValues := #[]
  zValues := #[]
  trajectory := #[]

def addIf (condition : Bool) (sum v : α) : α := if condition then sum + v else sum

def pushIf {β : Type} (values : Array β) : Option β → Array β
  | some v => values.push v
  | none => values

def gWordName (n : Nat) : String := "G" ++ Decimal.natText n

def feed? (m : Segment α) : Option α :=
  if Scalar.less Scalar.zero m.feed then some m.feed else none

/-- The tally with one more segment (`StatisticsAggregator::record`). -/
def record (limit : Nat) (t : Tally α) (m : Segment α) : Tally α where
  processed := t.processed + 1
  rapidMoves := if m.motion = some .rapid then t.rapidMoves + 1 else t.rapidMoves
  cutMoves := if m.motion = some .cut then t.cutMoves + 1 else t.cutMoves
  gWords := match m.gNumber with
    | some n => t.gWords.add (gWordName n)
    | none => t.gWords
  cutDistance := addIf (m.motion = some .cut && m.moved) t.cutDistance m.distance
  cutTime := addIf (m.motion = some .cut && m.moved) t.cutTime m.time
  rapidDistance := addIf (m.motion = some .rapid && m.moved) t.rapidDistance m.distance
  warnings := t.warnings
  feeds := t.feeds.push? (feed? m)
  heights := t.heights.push? m.words.z
  xs := t.xs.push? m.words.x
  ys := t.ys.push? m.words.y
  feedValues := pushIf t.feedValues (feed? m)
  zValues := pushIf t.zValues m.words.z
  trajectory :=
    if m.words.setsPlane && t.trajectory.size < limit then
      t.trajectory.push (m.stop.x, m.stop.y)
    else t.trajectory

/-- The tally with more warnings (`record_warnings`). -/
def warn (t : Tally α) (count : Nat) : Tally α := { t with warnings := t.warnings + count }

/-- As `warn`, if a machine word can hold the sum. -/
def warn? (t : Tally α) (count : Nat) : Option (Tally α) :=
  (word? (t.warnings + count)).map fun _ => t.warn count

/-- The report when all lines are read (`StatisticsAggregator::finish`). -/
def report (t : Tally α) (linesRead : Nat) : AnalysisReport α where
  summary :=
    { linesRead := linesRead
      processedLines := t.processed
      rapidMoves := t.rapidMoves
      cutMoves := t.cutMoves
      gWordCounts := t.gWords
      cutDistance := t.cutDistance
      cutTime := t.cutTime
      rapidDistance := t.rapidDistance
      warnings := t.warnings }
  feeds := t.feeds.stats
  heights := t.heights.stats
  bounds := ⟨t.xs.stats.min, t.xs.stats.max, t.ys.stats.min, t.ys.stats.max⟩
  chart := ⟨t.feedValues.toList, t.zValues.toList, t.trajectory.toList⟩

end Tally
end BasRelief
