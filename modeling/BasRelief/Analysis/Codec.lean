import BasRelief.Analysis.Report
import BasRelief.Document.Record
import BasRelief.Machine.State

/-!
# Machine states and reports as document values
-/

namespace BasRelief
open Document

namespace Axis

def ofValue : Decoder Axis := Decoder.choice [("X", x), ("Y", y), ("Z", z), ("F", f)]

def toValue (a : Axis) : Value := .text (String.ofList [a.letter])

end Axis

namespace MotionKind

def ofValue : Decoder MotionKind :=
  Decoder.choice [("rapid", rapid), ("cut", cut), ("other", other)]

def toValue (k : MotionKind) : Value := .text k.name

end MotionKind

namespace Position

def toValue (p : Position Float) : Value :=
  .record [("x", .float p.x), ("y", .float p.y), ("z", .float p.z)]

def ofValue : Decoder (Position Float) := fun d v => do
  let r ← Record.of [⟨"x", none⟩, ⟨"y", none⟩, ⟨"z", none⟩] d v
  return ⟨← r.required d "x" .float, ← r.required d "y" .float, ← r.required d "z" .float⟩

end Position

namespace Words

def toValue (w : Words Float) : Value :=
  .record [("x", .ofOption .float w.x), ("y", .ofOption .float w.y), ("z", .ofOption .float w.z),
    ("f", .ofOption .float w.f)]

def ofValue : Decoder (Words Float) := fun d v => do
  let r ← Record.of [⟨"x", none⟩, ⟨"y", none⟩, ⟨"z", none⟩, ⟨"f", none⟩] d v
  return ⟨← r.optional d "x" .float, ← r.optional d "y" .float, ← r.optional d "z" .float,
    ← r.optional d "f" .float⟩

end Words

namespace MachineState

def toValue (s : MachineState Float) : Value :=
  .record [("position", s.position.toValue), ("feed", .float s.feed)]

def ofValue : Decoder (MachineState Float) := fun d v => do
  let r ← Record.of [⟨"position", none⟩, ⟨"feed", none⟩] d v
  return ⟨← r.required d "position" Position.ofValue, ← r.required d "feed" .float⟩

end MachineState

namespace Segment

def fields : List Field :=
  [⟨"line_number", none⟩, ⟨"g_word", none⟩, ⟨"motion", none⟩, ⟨"distance", none⟩, ⟨"time", none⟩,
   ⟨"feed_at_line", none⟩, ⟨"moved", none⟩, ⟨"words", none⟩, ⟨"end", none⟩]

def toValue (s : Segment Float) : Value :=
  .record
    [("line_number", .natural s.line),
     ("g_word", .ofOption .natural s.gNumber),
     ("motion", .ofOption MotionKind.toValue s.motion),
     ("distance", .float s.distance),
     ("time", .float s.time),
     ("feed_at_line", .float s.feed),
     ("moved", .bool s.moved),
     ("words", s.words.toValue),
     ("end", s.stop.toValue)]

def ofValue : Decoder (Segment Float) := fun d v => do
  let r ← Record.of fields d v
  return {
    line := ← r.required d "line_number" .natural
    gNumber := ← r.optional d "g_word" (.naturalBelow (Nat.pow 2 32))
    motion := ← r.optional d "motion" MotionKind.ofValue
    distance := ← r.required d "distance" .float
    time := ← r.required d "time" .float
    feed := ← r.required d "feed_at_line" .float
    moved := ← r.required d "moved" .bool
    words := ← r.required d "words" Words.ofValue
    stop := ← r.required d "end" Position.ofValue }

end Segment

namespace SeriesStats

def toValue (s : SeriesStats Float) : Value :=
  .record [("max", .float s.max), ("min", .float s.min), ("mean", .float s.mean),
    ("count", .natural s.count)]

def ofValue : Decoder (SeriesStats Float) := fun d v => do
  let r ← Record.of [⟨"max", Option.none⟩, ⟨"min", Option.none⟩, ⟨"mean", Option.none⟩,
    ⟨"count", Option.none⟩] d v
  return ⟨← r.required d "max" .float, ← r.required d "min" .float, ← r.required d "mean" .float,
    ← r.required d "count" .natural⟩

end SeriesStats

namespace PlaneBounds

def toValue (b : PlaneBounds Float) : Value :=
  .record [("x_min", .float b.xMin), ("x_max", .float b.xMax), ("y_min", .float b.yMin),
    ("y_max", .float b.yMax)]

def ofValue : Decoder (PlaneBounds Float) := fun d v => do
  let r ← Record.of [⟨"x_min", none⟩, ⟨"x_max", none⟩, ⟨"y_min", none⟩, ⟨"y_max", none⟩] d v
  return ⟨← r.required d "x_min" .float, ← r.required d "x_max" .float,
    ← r.required d "y_min" .float, ← r.required d "y_max" .float⟩

end PlaneBounds

namespace WordCounts

def put (word : String) (n : Nat) : WordCounts → WordCounts
  | [] => [(word, n)]
  | (w, m) :: rest =>
    if word = w then (w, n) :: rest
    else if word < w then (word, n) :: (w, m) :: rest
    else (w, m) :: put word n rest

def toValue (c : WordCounts) : Value := .record (c.map fun (word, n) => (word, .natural n))

/-- Counts by word; of two counts for a word the later one stays. -/
def ofValue : Decoder WordCounts
  | d, .table _ entries =>
    entries.foldlM (fun counts (key, v) =>
      match key with
      | some word => (Decoder.natural d v).map fun n => put word n counts
      | none => .error (.expected "key")) []
  | _, _ => .error (.expected "table")

end WordCounts

namespace MotionSummary

def fields : List Field :=
  [⟨"lines_read", none⟩, ⟨"processed_lines", none⟩, ⟨"rapid_moves", none⟩, ⟨"cut_moves", none⟩,
   ⟨"g_word_counts", none⟩, ⟨"cut_distance_mm", none⟩, ⟨"cut_time_s", none⟩,
   ⟨"rapid_distance_mm", none⟩, ⟨"warnings", none⟩]

def toValue (s : MotionSummary Float) : Value :=
  .record
    [("lines_read", .natural s.linesRead),
     ("processed_lines", .natural s.processedLines),
     ("rapid_moves", .natural s.rapidMoves),
     ("cut_moves", .natural s.cutMoves),
     ("g_word_counts", s.gWordCounts.toValue),
     ("cut_distance_mm", .float s.cutDistance),
     ("cut_time_s", .float s.cutTime),
     ("rapid_distance_mm", .float s.rapidDistance),
     ("warnings", .natural s.warnings)]

def ofValue : Decoder (MotionSummary Float) := fun d v => do
  let r ← Record.of fields d v
  return {
    linesRead := ← r.required d "lines_read" .natural
    processedLines := ← r.required d "processed_lines" .natural
    rapidMoves := ← r.required d "rapid_moves" .natural
    cutMoves := ← r.required d "cut_moves" .natural
    gWordCounts := ← r.required d "g_word_counts" WordCounts.ofValue
    cutDistance := ← r.required d "cut_distance_mm" .float
    cutTime := ← r.required d "cut_time_s" .float
    rapidDistance := ← r.required d "rapid_distance_mm" .float
    warnings := ← r.required d "warnings" .natural }

end MotionSummary

namespace ChartSeries

def toValue (c : ChartSeries Float) : Value :=
  .record
    [("feeds", .array (c.feeds.map .float)),
     ("z_values", .array (c.zValues.map .float)),
     ("trajectory", .array (c.trajectory.map fun (x, y) => .array [.float x, .float y]))]

def ofValue : Decoder (ChartSeries Float) := fun d v => do
  let r ← Record.of [⟨"feeds", none⟩, ⟨"z_values", none⟩, ⟨"trajectory", none⟩] d v
  return ⟨← r.required d "feeds" (.list .float), ← r.required d "z_values" (.list .float),
    ← r.required d "trajectory" (.list (.pair .float .float))⟩

end ChartSeries

namespace AnalysisReport

def toValue (r : AnalysisReport Float) : Value :=
  .record [("summary", r.summary.toValue), ("feeds", r.feeds.toValue),
    ("heights", r.heights.toValue), ("bounds", r.bounds.toValue), ("chart", r.chart.toValue)]

def ofValue : Decoder (AnalysisReport Float) := fun d v => do
  let r ← Record.of [⟨"summary", none⟩, ⟨"feeds", none⟩, ⟨"heights", none⟩, ⟨"bounds", none⟩,
    ⟨"chart", none⟩] d v
  return ⟨← r.required d "summary" MotionSummary.ofValue, ← r.required d "feeds" SeriesStats.ofValue,
    ← r.required d "heights" SeriesStats.ofValue, ← r.required d "bounds" PlaneBounds.ofValue,
    ← r.required d "chart" ChartSeries.ofValue⟩

end AnalysisReport
end BasRelief
