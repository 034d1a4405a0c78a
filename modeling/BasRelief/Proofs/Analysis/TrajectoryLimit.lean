import BasRelief.Proofs.Analysis.Statements

/-!
# The limit of a trajectory

Of two analyses that differ in how many points they keep, the one that keeps fewer is the other
with the later points left out, after any number of lines. Nothing that is counted, added up or
collected besides knows when the trajectory is full.
-/

namespace BasRelief
open Gcode
variable {α : Type}

/-! ### What is kept under a limit -/

/-- The same limits but for the number of points. -/
def AnalysisLimits.keeping (limit : Nat) (limits : AnalysisLimits α) : AnalysisLimits α :=
  { limits with trajectory := limit }

/-- The same tally with the first points only. -/
def Tally.keeping (limit : Nat) (t : Tally α) : Tally α :=
  { t with trajectory := (t.trajectory.toList.take limit).toArray }

def Analysis.keeping (limit : Nat) (a : Analysis α) : Analysis α :=
  { a with tally := a.tally.keeping limit }

/-- The same report with the first points only. -/
def AnalysisReport.keeping (limit : Nat) (r : AnalysisReport α) : AnalysisReport α :=
  { r with chart := { r.chart with trajectory := r.chart.trajectory.take limit } }

/-! ### One line -/

theorem take_pushed {β : Type} {limit limit' : Nat} (h : limit ≤ limit') (vs : Array β) (v : β) :
    ((if vs.size < limit' then vs.push v else vs).toList.take limit).toArray =
      if (vs.toList.take limit).length < limit then (vs.toList.take limit).toArray.push v
      else (vs.toList.take limit).toArray := by
  by_cases hroom : vs.size < limit'
  · rw [if_pos hroom, Array.toList_push, Modal.take_snoc, List.push_toArray]
    split <;> rfl
  · -- a full trajectory has all the points that the lower limit lets in
    have hfull : ¬(vs.toList.take limit).length < limit := by
      rw [List.length_take, Array.length_toList]
      omega
    rw [if_neg hroom, if_neg hfull]

variable [Scalar α]

theorem Tally.record_keeping {limit limit' : Nat} (h : limit ≤ limit') (t : Tally α)
    (m : Segment α) : (t.keeping limit).record limit m = (t.record limit' m).keeping limit := by
  have htrajectory := take_pushed h t.trajectory (m.stop.x, m.stop.y)
  simp only [record, keeping, Tally.mk.injEq, true_and]
  cases m.words.setsPlane with
  | false => rfl
  | true => simpa using htrajectory.symm

namespace Analysis

theorem token_keeping (limits : AnalysisLimits α) {limit : Nat} (h : limit ≤ limits.trajectory)
    (a : Analysis α) (number : Nat) (t : Token α) :
    (a.keeping limit).token (limits.keeping limit) number t =
      (a.token limits number t).keeping limit := by
  have hrecord := (a.tally.warn t.warnings.length).record_keeping h
    (a.machine.segment limits.tolerance number t)
  exact congrArg (Analysis.mk number (a.machine.after t.words)) hrecord

theorem line_keeping (limits : AnalysisLimits α) {limit : Nat} (h : limit ≤ limits.trajectory)
    (a : Analysis α) (l : List Char) :
    (a.keeping limit).line (limits.keeping limit) l = (a.line limits l).keeping limit := by
  unfold line
  dsimp only [keeping]
  cases (Token.read? (a.linesRead + 1) l : Option (Token α)) with
  | none => rfl
  | some t => exact token_keeping limits h a (a.linesRead + 1) t

/-! ### A program -/

theorem lines_keeping (limits : AnalysisLimits α) {limit : Nat} (h : limit ≤ limits.trajectory)
    (a : Analysis α) (ls : List (List Char)) :
    (a.keeping limit).lines (limits.keeping limit) ls = (a.lines limits ls).keeping limit :=
  List.foldl_hom (keeping limit) (line_keeping limits h)

theorem start_keeping (limit : Nat) : (start : Analysis α).keeping limit = start := by
  simp [start, keeping, Tally.keeping, Tally.empty]

end Analysis

theorem analyzeLines_keeping (limits : AnalysisLimits α) {limit : Nat}
    (h : limit ≤ limits.trajectory) (ls : List (List Char)) :
    analyzeLines (limits.keeping limit) ls = (analyzeLines limits ls).keeping limit := by
  have hlines := Analysis.lines_keeping limits h .start ls
  rw [Analysis.start_keeping] at hlines
  rw [analyzeLines, hlines]
  rfl

/-- Whether a line gives a value to X or to Y. -/
def Gcode.setsPlane (α : Type) [Scalar α] (l : List Char) : Bool :=
  (Token.read? 0 l : Option (Token α)).any fun t => t.words.setsPlane

theorem Modal.length_points_statements (ls : List (List Char)) :
    (points (statements ls : List (Token α))).length = ls.countP (setsPlane α) := by
  rw [length_points, statements, List.countP_filterMap]
  apply List.countP_congr
  intro l _
  unfold setsPlane
  cases (Token.read? 0 l : Option (Token α)) <;> rfl

theorem analyzeLines_trajectory (limits : AnalysisLimits α) (ls : List (List Char)) :
    (analyzeLines limits ls).chart.trajectory =
      (Modal.points (Modal.statements ls)).take limits.trajectory := by
  rw [analyzeLines_eq_statements]
  rfl

/-- A lower limit leaves later points out of the trajectory and changes nothing else in a report,
and a limit that the lines with X or Y do not exceed leaves nothing out. -/
theorem report_under_trajectory_limits {low high : AnalysisLimits α}
    (htolerance : low.tolerance = high.tolerance) (hlimit : low.trajectory ≤ high.trajectory)
    (ls : List (List Char)) :
    analyzeLines low ls = (analyzeLines high ls).keeping low.trajectory ∧
      (∀ limits : AnalysisLimits α, ls.countP (setsPlane α) ≤ limits.trajectory →
        (analyzeLines limits ls).chart.trajectory = Modal.points (Modal.statements ls)) ∧
      (Modal.points (Modal.statements ls : List (Token α))).length = ls.countP (setsPlane α) := by
  have hlow : low = high.keeping low.trajectory := by
    rw [AnalysisLimits.keeping, ← htolerance]
  refine ⟨?kept, ?complete, Modal.length_points_statements ls⟩
  case kept =>
    have hkept := analyzeLines_keeping high hlimit ls
    rwa [← hlow] at hkept
  case complete =>
    intro limits henough
    rw [← Modal.length_points_statements] at henough
    rw [analyzeLines_trajectory, List.take_of_length_le henough]

/-- Two lines with X or Y, one with neither, and another one with X. -/
def cornerLines : List (List Char) :=
  ["G0 X1", "G1 Y2 F60", "Z3", "G1 X4"].map String.toList

theorem cornerLines_report :
    analyzeLines (⟨0, 2⟩ : AnalysisLimits Rat) cornerLines =
        (analyzeLines ⟨0, 3⟩ cornerLines).keeping 2 ∧
      (analyzeLines (⟨0, 2⟩ : AnalysisLimits Rat) cornerLines).chart.trajectory =
        [(1, 0), (1, 2)] ∧
      cornerLines.countP (setsPlane Rat) = 3 ∧
      (analyzeLines (⟨0, 3⟩ : AnalysisLimits Rat) cornerLines).chart.trajectory =
        Modal.points (Modal.statements cornerLines) ∧
      (analyzeLines (⟨0, 3⟩ : AnalysisLimits Rat) cornerLines).chart.trajectory =
        [(1, 0), (1, 2), (4, 2)] := by
  have hcount : cornerLines.countP (setsPlane Rat) = 3 := by decide +kernel
  obtain ⟨hkept, hcomplete, _⟩ := report_under_trajectory_limits
    (show (⟨0, 2⟩ : AnalysisLimits Rat).tolerance = (⟨0, 3⟩ : AnalysisLimits Rat).tolerance from rfl)
    (show 2 ≤ 3 by decide) cornerLines
  exact ⟨hkept, by decide +kernel, hcount, hcomplete ⟨0, 3⟩ hcount.le, by decide +kernel⟩

end BasRelief
