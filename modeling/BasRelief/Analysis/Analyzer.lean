import BasRelief.Analysis.Tally
import BasRelief.Config.Settings
import BasRelief.Text.Lines

/-!
# Program analysis

A program is read line by line from a fresh machine. Lines without a token count as read and do
nothing else.
-/

namespace BasRelief

/-- The settings of an analysis: `float_tolerance` and `trajectory_limit`. -/
structure AnalysisLimits (α : Type) where
  tolerance : α
  trajectory : Nat

/-- An `AnalysisRun` with the count of the lines that it has read. -/
structure Analysis (α : Type) where
  linesRead : Nat
  machine : MachineState α
  tally : Tally α

namespace Analysis
variable {α : Type} [Scalar α]

def start : Analysis α := ⟨0, .start, .empty⟩

def token (limits : AnalysisLimits α) (a : Analysis α) (number : Nat) (t : Gcode.Token α) :
    Analysis α where
  linesRead := number
  machine := a.machine.after t.words
  tally :=
    (a.tally.warn t.warnings.length).record limits.trajectory
      (a.machine.segment limits.tolerance number t)

/-- The run after one more line (`AnalysisRun::line`). -/
def line (limits : AnalysisLimits α) (a : Analysis α) (cs : List Char) : Analysis α :=
  let number := a.linesRead + 1
  match Gcode.Token.read? number cs with
  | some t => a.token limits number t
  | none => { a with linesRead := number }

def lines (limits : AnalysisLimits α) (a : Analysis α) (ls : List (List Char)) : Analysis α :=
  ls.foldl (line limits) a

def report (a : Analysis α) : AnalysisReport α := a.tally.report a.linesRead

end Analysis

/-- The report on lines (`analyze_lines`). -/
def analyzeLines {α : Type} [Scalar α] (limits : AnalysisLimits α) (ls : List (List Char)) :
    AnalysisReport α :=
  (Analysis.start.lines limits ls).report

/-- The report on a text (`analyze_str`). -/
def analyzeText {α : Type} [Scalar α] (limits : AnalysisLimits α) (cs : List Char) :
    AnalysisReport α :=
  analyzeLines limits (Text.lines cs)

namespace AnalyzerSettings

def limits (s : AnalyzerSettings) : AnalysisLimits Float := ⟨s.floatTolerance, s.trajectoryLimit⟩

end AnalyzerSettings

namespace Analysis
variable {α : Type} [Scalar α]

/-! ### Laws -/

theorem lines_append (limits : AnalysisLimits α) (a : Analysis α) (p q : List (List Char)) :
    a.lines limits (p ++ q) = (a.lines limits p).lines limits q := by
  simp [lines]

theorem linesRead_line (limits : AnalysisLimits α) (a : Analysis α) (cs : List Char) :
    (a.line limits cs).linesRead = a.linesRead + 1 := by
  unfold line
  cases h : (Gcode.Token.read? (a.linesRead + 1) cs : Option (Gcode.Token α)) <;> simp [h, token]

theorem linesRead_lines (limits : AnalysisLimits α) (a : Analysis α) (ls : List (List Char)) :
    (a.lines limits ls).linesRead = a.linesRead + ls.length := by
  induction ls generalizing a with
  | nil => rfl
  | cons l ls ih =>
    have step : a.lines limits (l :: ls) = (a.line limits l).lines limits ls := rfl
    rw [step, ih, linesRead_line, List.length_cons]
    omega

end Analysis
end BasRelief
