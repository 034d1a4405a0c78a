import BasRelief.Toolpath.Raster

/-!
# Toolpath generator

Whole plans: a header that sets up the machine, the moves of one or several passes, and a footer
that stops it. A generator holds parameters that were checked when it was made.
-/

namespace BasRelief

/-- Parameters in their ranges (`ToolpathGenerator`). -/
structure Generator (α : Type) [Scalar α] where
  params : ToolpathParameters α
  accepted : params.fault? = none

namespace Generator
variable {α : Type} [Scalar α]

/-- A generator, unless a parameter is out of its range (`ToolpathGenerator::new`). -/
def ofParameters (p : ToolpathParameters α) : Except (ParameterError α) (Generator α) :=
  match h : p.fault? with
  | some e => .error e
  | none => .ok ⟨p, h⟩

/-! ### Header and footer -/

def titleLines (p : ToolpathParameters α) (time title : String) (rows cols : Nat) : List String :=
  [title,
   "Generated: " ++ time,
   "Grid: " ++ Decimal.natText cols ++ " x " ++ Decimal.natText rows ++ " points, " ++
     Scalar.fixed 3 p.step ++ " mm step",
   "Size: " ++ Scalar.fixed 2 (Scalar.natural cols * p.step) ++ "mm x " ++
     Scalar.fixed 2 (Scalar.natural rows * p.step) ++ "mm",
   "Tool diameter: " ++ Scalar.fixed 3 p.toolDiameter ++ " mm",
   "Feed rate: " ++ Scalar.fixed 0 p.cutFeed ++ " mm/min"]

def toOrigin : Motion α := .traverse (.xy Scalar.zero Scalar.zero)

def setup (p : ToolpathParameters α) : List (PlanStep α) :=
  [.code .unitsMillimeters, .code .absolutePositioning, .code .planeXY, .code .spindleOn,
   .motion (.rapid (.zOnly p.safeZ) (some p.rapidFeed)), .motion toOrigin]

/-- What stands before the moves (`header`). -/
def header (p : ToolpathParameters α) (time title : String) (rows cols : Nat) :
    List (PlanStep α) :=
  (titleLines p time title rows cols).map .comment ++ setup p

/-- What stands behind the moves (`footer`). -/
def footer (p : ToolpathParameters α) : List (PlanStep α) :=
  [.comment "End of program", .code .spindleOff, .motion p.lift, .motion toOrigin,
   .code .programEnd]

/-! ### Plans -/

/-- The plan that cuts every cell of a height grid once, at its height below zero
(`single_pass`). -/
def singlePass (g : Generator α) (time : String) (grid : HeightGrid α) : Plan α where
  steps :=
    header g.params time "Relief carving toolpath" grid.rows grid.cols ++
      [.comment ("Max height: " ++ Scalar.fixed 3 grid.maxHeight ++ " mm")] ++
      (g.params.surfaceMoves grid).map .motion ++ footer g.params
  passes := 1

def passComment (number count : Nat) (depth : α) : String :=
  "Pass " ++ Decimal.natText number ++ "/" ++ Decimal.natText count ++ " at Z" ++
    Scalar.fixed 3 depth

def passSteps (p : ToolpathParameters α) (mask : ActiveMask) (count : Nat) (depth : α)
    (index : Nat) : List (PlanStep α) :=
  .comment (passComment (index + 1) count depth) :: (p.passMoves mask depth).map .motion

def depthComment (p : ToolpathParameters α) (total : α) (count : Nat) : String :=
  "Total depth: " ++ Scalar.fixed 3 total ++ " mm in " ++ Decimal.natText count ++
    " passes of at most " ++ Scalar.fixed 3 p.maxDepthPerPass ++ " mm"

def planOfDepths (p : ToolpathParameters α) (time : String) (mask : ActiveMask) (total : α)
    (depths : List α) : Plan α where
  steps :=
    header p time "Binary multi-pass toolpath" mask.rows mask.cols ++
      [.comment (depthComment p total depths.length)] ++
      (depths.zipIdx.flatMap fun (depth, index) =>
        passSteps p mask depths.length depth index) ++ footer p
  passes := depths.length

/-- The plan that cuts the active cells pass by pass down to the total depth (`multi_pass`). -/
def multiPass (g : Generator α) (time : String) (mask : ActiveMask) (total : α) :
    Except (ParameterError α) (Plan α) :=
  (passDepths total g.params.maxDepthPerPass).map (planOfDepths g.params time mask total)

end Generator

/-! ### Progress -/

/-- The reports of a single pass: after the header, after the moves, at the end. -/
def singlePassProgress : List Float32 := [0.1, 0.9, 1]

/-- The reports of a plan of several passes: after the header, after each pass, at the end. -/
def multiPassProgress (count : Nat) : List Float32 :=
  0.05 :: (List.range count).map (fun i =>
    0.05 + 0.9 * Float32.ofNat (i + 1) / Float32.ofNat count) ++ [1]

end BasRelief
