import BasRelief.Field.ActiveMask
import BasRelief.Toolpath.Parameters
import BasRelief.Toolpath.Plan

/-!
# Raster scans

The moves over a grid, row by row in alternating direction. A height grid is cut at every cell. A
mask is first scanned into strokes, what the tool does at its cells, and the strokes become moves.
-/

namespace BasRelief

/-- The columns of a row in visiting order: upwards in even rows, downwards in odd ones
(`zigzag_columns`). -/
def zigzagColumns (row cols : Nat) : List Nat :=
  if row % 2 = 0 then List.range cols else (List.range cols).reverse

namespace ToolpathParameters
variable {α : Type} [Scalar α]

/-- The coordinate of a row or column (`ToolpathGenerator::position`). -/
def place (p : ToolpathParameters α) (index : Nat) : α := Scalar.natural index * p.step

def cutAt (p : ToolpathParameters α) (row col : Nat) (z : α) : Motion α :=
  .carve (.xyz (p.place col) (p.place row) z) p.cutFeed

def traverseTo (p : ToolpathParameters α) (row col : Nat) : Motion α :=
  .traverse (.xyz (p.place col) (p.place row) p.safeZ)

def lift (p : ToolpathParameters α) : Motion α := .traverse (.zOnly p.safeZ)

/-! ### Height grids -/

/-- The cuts of one row; a cell that is not stored is not cut. -/
def rowCuts (p : ToolpathParameters α) (g : HeightGrid α) (row : Nat) : List (Motion α) :=
  (zigzagColumns row g.cols).filterMap fun col =>
    (g.get? row col).map fun height => p.cutAt row col (-height)

def rowMoves (p : ToolpathParameters α) (g : HeightGrid α) (row : Nat) : List (Motion α) :=
  p.rowCuts g row ++ if row + 1 < g.rows then [p.lift] else []

/-- The moves over a height grid, row by row (`surface_moves`). -/
def surfaceMoves (p : ToolpathParameters α) (g : HeightGrid α) : List (Motion α) :=
  (List.range g.rows).flatMap (p.rowMoves g)

end ToolpathParameters

/-! ### Masks -/

inductive Stroke where
  | approach (row col : Nat)
  | carve (row col : Nat)
  | retract
  deriving DecidableEq, Repr

namespace ActiveMask

/-- The strokes over the remaining columns of a row; `cutting` says that the tool is in the
material. -/
def scan (m : ActiveMask) (row : Nat) : Bool → List Nat → List Stroke
  | cutting, [] => if cutting then [.retract] else []
  | cutting, col :: cols =>
    match cutting, m.active row col with
    | false, true => .approach row col :: .carve row col :: m.scan row true cols
    | true, true => .carve row col :: m.scan row true cols
    | true, false => .retract :: m.scan row false cols
    | false, false => m.scan row false cols

def strokes (m : ActiveMask) : List Stroke :=
  (List.range m.rows).flatMap fun row => m.scan row false (zigzagColumns row m.cols)

end ActiveMask

namespace ToolpathParameters
variable {α : Type} [Scalar α]

def strokeMove (p : ToolpathParameters α) (depth : α) : Stroke → Motion α
  | .approach row col => p.traverseTo row col
  | .carve row col => p.cutAt row col depth
  | .retract => p.lift

/-- The moves of one pass over the active cells (`pass_moves`). -/
def passMoves (p : ToolpathParameters α) (m : ActiveMask) (depth : α) : List (Motion α) :=
  m.strokes.map (p.strokeMove depth)

end ToolpathParameters

/-! ### Laws -/

theorem mem_zigzagColumns {row cols col : Nat} : col ∈ zigzagColumns row cols ↔ col < cols := by
  unfold zigzagColumns
  split <;> simp

theorem length_zigzagColumns (row cols : Nat) : (zigzagColumns row cols).length = cols := by
  unfold zigzagColumns
  split <;> simp

end BasRelief
