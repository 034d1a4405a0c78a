import BasRelief.Machine.Words

/-!
# Motion plans

A plan is the ordered program of one carving: comments, machine codes and moves. Counts of moves
are counts over the list of steps, so they add up when plans are joined.
-/

namespace BasRelief

/-- The coordinates that a move names; an axis without one stays. -/
structure Target (α : Type) where
  x : Option α := none
  y : Option α := none
  z : Option α := none
  deriving DecidableEq, Repr

namespace Target
variable {α : Type}

def xyz (x y z : α) : Target α := ⟨some x, some y, some z⟩

def xy (x y : α) : Target α := ⟨some x, some y, none⟩

def zOnly (z : α) : Target α := ⟨none, none, some z⟩

def move (t : Target α) (p : Position α) : Position α :=
  ⟨t.x.getD p.x, t.y.getD p.y, t.z.getD p.z⟩

end Target

/-- A move, a cut with the feed that it is told (`MotionCommand`). -/
inductive Motion (α : Type) where
  | rapid (target : Target α) (feed : Option α)
  | cut (target : Target α) (feed : Option α)
  deriving DecidableEq, Repr

namespace Motion
variable {α : Type}

def target : Motion α → Target α
  | rapid t _ => t
  | cut t _ => t

def feed : Motion α → Option α
  | rapid _ f => f
  | cut _ f => f

def kind : Motion α → MotionKind
  | rapid .. => .rapid
  | cut .. => .cut

def traverse (t : Target α) : Motion α := rapid t none

def carve (t : Target α) (feed : α) : Motion α := cut t (some feed)

def isRapid (m : Motion α) : Bool := m.kind = .rapid

def isCut (m : Motion α) : Bool := m.kind = .cut

end Motion

/-- The codes that set up and end a program (`MachineCode`). -/
inductive MachineCode where
  | unitsMillimeters
  | absolutePositioning
  | planeXY
  | spindleOn
  | spindleOff
  | programEnd
  deriving DecidableEq, Repr

namespace MachineCode

def word : MachineCode → String
  | unitsMillimeters => "G21"
  | absolutePositioning => "G90"
  | planeXY => "G17"
  | spindleOn => "M3"
  | spindleOff => "M5"
  | programEnd => "M30"

def description : MachineCode → String
  | unitsMillimeters => "Set units to millimeters"
  | absolutePositioning => "Absolute positioning"
  | planeXY => "XY plane selection"
  | spindleOn => "Start spindle"
  | spindleOff => "Stop spindle"
  | programEnd => "End program"

end MachineCode

/-- A line of a plan (`PlanStep`). -/
inductive PlanStep (α : Type) where
  | comment (text : String)
  | code (code : MachineCode)
  | motion (motion : Motion α)
  deriving DecidableEq, Repr

namespace PlanStep
variable {α : Type}

def motion? : PlanStep α → Option (Motion α)
  | motion m => some m
  | _ => none

def isComment : PlanStep α → Bool
  | comment _ => true
  | _ => false

end PlanStep

/-- The steps of a program and the number of its passes (`MotionPlan`). -/
structure Plan (α : Type) where
  steps : List (PlanStep α) := []
  passes : Nat := 0
  deriving DecidableEq, Repr

namespace Plan
variable {α : Type}

def empty : Plan α := {}

def append (p : Plan α) (steps : List (PlanStep α)) : Plan α := { p with steps := p.steps ++ steps }

def push (p : Plan α) (step : PlanStep α) : Plan α := p.append [step]

def extend (p : Plan α) (moves : List (Motion α)) : Plan α := p.append (moves.map .motion)

def motions (p : Plan α) : List (Motion α) := p.steps.filterMap PlanStep.motion?

/-- The number of cuts (`cut_count`). -/
def cutCount (p : Plan α) : Nat := p.motions.countP Motion.isCut

/-- The number of rapid moves (`rapid_count`). -/
def rapidCount (p : Plan α) : Nat := p.motions.countP Motion.isRapid

def length (p : Plan α) : Nat := p.steps.length

def isEmpty (p : Plan α) : Bool := p.steps.isEmpty

/-! ### Laws -/

theorem motions_append (p : Plan α) (steps : List (PlanStep α)) :
    (p.append steps).motions = p.motions ++ steps.filterMap PlanStep.motion? := by
  simp [append, motions]

theorem motions_extend (p : Plan α) (moves : List (Motion α)) :
    (p.extend moves).motions = p.motions ++ moves := by
  rw [extend, motions_append]
  congr 1
  induction moves with
  | nil => rfl
  | cons m ms ih => simp [PlanStep.motion?, ih]

theorem cutCount_extend (p : Plan α) (moves : List (Motion α)) :
    (p.extend moves).cutCount = p.cutCount + moves.countP Motion.isCut := by
  simp [cutCount, motions_extend]

theorem rapidCount_extend (p : Plan α) (moves : List (Motion α)) :
    (p.extend moves).rapidCount = p.rapidCount + moves.countP Motion.isRapid := by
  simp [rapidCount, motions_extend]

end Plan
end BasRelief
