import BasRelief.Toolpath.Plan

/-!
# Program text

A plan as program lines, one line per step. Coordinates have three decimal places and feeds none;
a coordinate that rounds to zero has no sign.
-/

namespace BasRelief.Gcode
variable {α : Type} [Scalar α]

/-! ### Moves -/

/-- A coordinate to the thousandth; a half goes away from zero, and zero is positive. -/
def thousandths (v : α) : α :=
  let v := Scalar.round (v * Scalar.natural 1000) / Scalar.natural 1000
  if Scalar.equal v Scalar.zero then Scalar.zero else v

def coordinateWord (a : Axis) : Option α → String
  | some v => String.ofList [' ', a.letter] ++ Scalar.fixed 3 (thousandths v)
  | none => ""

def feedWord : Option α → String
  | some v => String.ofList [' ', Axis.letter .f] ++ Scalar.fixed 0 v
  | none => ""

def moveWord : Motion α → String
  | .rapid .. => "G0"
  | .cut .. => "G1"

/-- The line of a move (`format_motion`). -/
def motionLine (m : Motion α) : String :=
  moveWord m ++ coordinateWord .x m.target.x ++ coordinateWord .y m.target.y ++
    coordinateWord .z m.target.z ++ feedWord m.feed

/-! ### Steps and plans -/

/-- The line of a machine code, with or without its description (`format_code`). -/
def codeLine (annotate : Bool) (c : MachineCode) : String :=
  if annotate then c.word ++ " ; " ++ c.description else c.word

/-- The line of a step; the text of a comment is printed as it is (`format_step`). -/
def stepLine (annotate : Bool) : PlanStep α → String
  | .comment text => "; " ++ text
  | .code c => codeLine annotate c
  | .motion m => motionLine m

/-- The lines of a plan (`GcodeEmitter::lines`). -/
def lines (annotate : Bool) (p : Plan α) : List String := p.steps.map (stepLine annotate)

/-- The lines of a plan, each closed by a line feed (`to_gcode`). -/
def program (p : Plan α) : String := String.join ((lines true p).map (· ++ "\n"))

/-! ### Laws -/

theorem length_lines (annotate : Bool) (p : Plan α) : (lines annotate p).length = p.length := by
  simp [lines, Plan.length]

theorem lines_append (annotate : Bool) (p : Plan α) (steps : List (PlanStep α)) :
    lines annotate (p.append steps) = lines annotate p ++ steps.map (stepLine annotate) := by
  simp [lines, Plan.append]

end BasRelief.Gcode
