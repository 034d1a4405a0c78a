import BasRelief.Gcode.Token

/-!
# Machine state

The position and the feed that a program has left the machine with. Values are modal: an axis
without a word stays, and the feed changes only where a line gives one.
-/

namespace BasRelief

/-- Where the tool is and at which feed it cuts (`MachineState`). -/
structure MachineState (α : Type) where
  position : Position α
  feed : α
  deriving DecidableEq, Repr

/-- What one line makes the machine do (`SegmentMetric`). -/
structure Segment (α : Type) where
  line : Nat
  gNumber : Option Nat
  motion : Option MotionKind
  distance : α
  time : α
  feed : α
  moved : Bool
  words : Words α
  stop : Position α
  deriving DecidableEq, Repr

namespace MachineState
variable {α : Type} [Scalar α]

def start : MachineState α := ⟨.origin, Scalar.zero⟩

/-- The state that the words of a line lead to. -/
def after (s : MachineState α) (w : Words α) : MachineState α := ⟨w.move s.position, w.f.getD s.feed⟩

/-- The seconds a cut takes; only a movement at a feed above zero takes time. -/
def cutTime (motion : Option MotionKind) (moved : Bool) (distance feed : α) : α :=
  if motion = some .cut ∧ moved ∧ Scalar.less Scalar.zero feed then
    distance / (feed / Scalar.natural 60)
  else Scalar.zero

/-- The segment of a line in a state (`MachineStateTracker::apply`). -/
def segment (tolerance : α) (s : MachineState α) (line : Nat) (t : Gcode.Token α) : Segment α :=
  let next := s.after t.words
  let distance := s.position.distance next.position
  let moved := Scalar.less tolerance distance
  { line := line
    gNumber := t.gNumber
    motion := t.motion
    distance := distance
    time := cutTime t.motion moved distance next.feed
    feed := next.feed
    moved := moved
    words := t.words
    stop := next.position }

end MachineState
end BasRelief
