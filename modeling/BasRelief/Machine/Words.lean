import BasRelief.Scalar

/-!
# Words and positions

The axis letters of a program line, the values a line gives to them, and the position of the
machine. `Words.move` overlays the values of a line on a position; an axis without a value stays.
-/

namespace BasRelief

inductive Axis where
  | x
  | y
  | z
  | f
  deriving DecidableEq, Repr

namespace Axis

/-- The axis of a letter in either case (`Axis::from_letter`). -/
def ofLetter? (c : Char) : Option Axis :=
  match c.toUpper with
  | 'X' => some x
  | 'Y' => some y
  | 'Z' => some z
  | 'F' => some f
  | _ => none

def letter : Axis → Char
  | x => 'X'
  | y => 'Y'
  | z => 'Z'
  | f => 'F'

theorem ofLetter?_letter (a : Axis) : ofLetter? a.letter = some a := by
  cases a <;> rfl

end Axis

inductive MotionKind where
  | rapid
  | cut
  | other
  deriving DecidableEq, Repr

namespace MotionKind

/-- The motion of a G number (`from_g_number`). -/
def ofNumber : Nat → MotionKind
  | 0 => rapid
  | 1 => cut
  | _ => other

def name : MotionKind → String
  | rapid => "rapid"
  | cut => "cut"
  | other => "other"

end MotionKind

/-- A place of the tool in millimetres (`Position`). -/
structure Position (α : Type) where
  x : α
  y : α
  z : α
  deriving DecidableEq, Repr

namespace Position
variable {α : Type} [Scalar α]

def origin : Position α := ⟨Scalar.zero, Scalar.zero, Scalar.zero⟩

/-- The straight distance of two places (`distance_to`). -/
def distance (a b : Position α) : α :=
  let dx := b.x - a.x
  let dy := b.y - a.y
  let dz := b.z - a.z
  Scalar.root (dx * dx + dy * dy + dz * dz)

def text (p : Position α) : String :=
  "X:" ++ Scalar.fixed 3 p.x ++ " Y:" ++ Scalar.fixed 3 p.y ++ " Z:" ++ Scalar.fixed 3 p.z

end Position

/-- The values that a line gives to the letters (`AxisWords`). -/
structure Words (α : Type) where
  x : Option α := none
  y : Option α := none
  z : Option α := none
  f : Option α := none
  deriving DecidableEq, Repr

namespace Words
variable {α : Type}

def get (w : Words α) : Axis → Option α
  | .x => w.x
  | .y => w.y
  | .z => w.z
  | .f => w.f

/-- The words with one more value, which replaces an earlier one (`AxisWords::set`). -/
def set (w : Words α) (a : Axis) (v : α) : Words α :=
  match a with
  | .x => { w with x := some v }
  | .y => { w with y := some v }
  | .z => { w with z := some v }
  | .f => { w with f := some v }

def isEmpty (w : Words α) : Bool :=
  w.x.isNone && w.y.isNone && w.z.isNone && w.f.isNone

def setsPlane (w : Words α) : Bool := w.x.isSome || w.y.isSome

/-- The place that words lead to; a missing coordinate stays (`apply_to`). -/
def move (w : Words α) (p : Position α) : Position α :=
  ⟨w.x.getD p.x, w.y.getD p.y, w.z.getD p.z⟩

/-- The later values, and the earlier ones where a later value is missing. -/
def overlay (later earlier : Words α) : Words α :=
  ⟨later.x <|> earlier.x, later.y <|> earlier.y, later.z <|> earlier.z, later.f <|> earlier.f⟩

/-! ### Laws -/

theorem get_set (w : Words α) (a b : Axis) (v : α) :
    (w.set a v).get b = if a = b then some v else w.get b := by
  cases a <;> cases b <;> rfl

theorem get_overlay (later earlier : Words α) (a : Axis) :
    (later.overlay earlier).get a = (later.get a <|> earlier.get a) := by
  cases a <;> rfl

theorem ext_get {v w : Words α} (h : ∀ a, v.get a = w.get a) : v = w := by
  cases v; cases w
  simp only [mk.injEq]
  exact ⟨h .x, h .y, h .z, h .f⟩

theorem set_overlay (w v : Words α) (a : Axis) (c : α) :
    (w.overlay v).set a c = (w.set a c).overlay v := by
  cases a <;> rfl

end Words
end BasRelief
