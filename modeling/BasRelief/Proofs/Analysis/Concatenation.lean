import BasRelief.Proofs.Analysis.Statements
import BasRelief.Proofs.Analysis.WordCounts

/-!
# Programs one after the other

What hangs on the tokens alone adds up when two programs stand one after the other: counts are
summed and programmed heights follow each other. What hangs on the machine does not start afresh:
the second program goes through its segments from the state that the first one leaves.
-/

namespace BasRelief
open Gcode
variable {α : Type} [Scalar α]

/-! ### Reports -/

/-- A report says of two programs together what two reports say of each. -/
structure AnalysisReport.Joins (r rp rq : AnalysisReport α) : Prop where
  linesRead : r.summary.linesRead = rp.summary.linesRead + rq.summary.linesRead
  processedLines : r.summary.processedLines = rp.summary.processedLines + rq.summary.processedLines
  rapidMoves : r.summary.rapidMoves = rp.summary.rapidMoves + rq.summary.rapidMoves
  cutMoves : r.summary.cutMoves = rp.summary.cutMoves + rq.summary.cutMoves
  warnings : r.summary.warnings = rp.summary.warnings + rq.summary.warnings
  gWords : ∀ word, r.summary.gWordCounts.count word =
    rp.summary.gWordCounts.count word + rq.summary.gWordCounts.count word
  zValues : r.chart.zValues = rp.chart.zValues ++ rq.chart.zValues
  heights : r.heights.count = rp.heights.count + rq.heights.count

theorem Modal.report_append (limits : AnalysisLimits α) (m n : Nat) (ts us : List (Token α)) :
    (report limits (m + n) (ts ++ us)).Joins (report limits m ts) (report limits n us) where
  linesRead := rfl
  processedLines := List.length_append
  rapidMoves := List.countP_append
  cutMoves := List.countP_append
  warnings := by
    simp only [report, List.flatMap_append, List.length_append]
  gWords word := by
    simp only [report, (isCountOf_gWords _).count_eq, List.filterMap_append, List.map_append,
      List.count_append]
  zValues := List.filterMap_append
  heights := by
    simp only [report, Series.count_stats, Series.count_ofList, List.filterMap_append,
      List.length_append]

/-! ### Segments -/

/-- The segment of a line, if it has a token, stands in front of those after the line. -/
theorem Analysis.segments_line (limits : AnalysisLimits α) (a : Analysis α) (l : List Char)
    (ls : List (List Char)) :
    a.machine.segments limits.tolerance (a.linesRead + 1) (l :: ls) =
      (Token.read? (a.linesRead + 1) l).toList.map
          (a.machine.segment limits.tolerance (a.linesRead + 1)) ++
        (a.line limits l).machine.segments limits.tolerance ((a.line limits l).linesRead + 1)
          ls := by
  rw [linesRead_line, MachineState.segments, line]
  cases (Token.read? (a.linesRead + 1) l : Option (Token α)) <;> rfl

theorem Analysis.segments_append (limits : AnalysisLimits α) (a : Analysis α)
    (p q : List (List Char)) :
    a.machine.segments limits.tolerance (a.linesRead + 1) (p ++ q) =
      a.machine.segments limits.tolerance (a.linesRead + 1) p ++
        (a.lines limits p).machine.segments limits.tolerance (a.linesRead + 1 + p.length) q := by
  induction p generalizing a with
  | nil => rfl
  | cons l p ih =>
    have hcount : (a.line limits l).linesRead + 1 + p.length =
        a.linesRead + 1 + (l :: p).length := by
      rw [linesRead_line, List.length_cons]
      omega
    rw [List.cons_append, segments_line, segments_line, ih, List.append_assoc, hcount, lines_cons]

/-- The report of two programs in a row counts what their reports count, and the segments are those
of the first program, then those of the second one from the state that the first one leaves. -/
theorem concatenated_analysis (limits : AnalysisLimits α) (p q : List (List Char)) :
    (analyzeLines limits (p ++ q)).Joins (analyzeLines limits p) (analyzeLines limits q) ∧
    MachineState.start.segments limits.tolerance 1 (p ++ q) =
      MachineState.start.segments limits.tolerance 1 p ++
        ((Analysis.start.lines limits p).machine.segments limits.tolerance 1 q).map
          (Segment.later p.length) := by
  constructor
  · rw [analyzeLines_eq_statements, analyzeLines_eq_statements, analyzeLines_eq_statements,
      Modal.statements_append, List.length_append]
    exact Modal.report_append limits p.length q.length _ _
  · rw [← MachineState.segments_later]
    exact Analysis.segments_append limits .start p q

end BasRelief
