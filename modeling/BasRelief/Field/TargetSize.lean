import BasRelief.Parameter

/-!
# Target size

How many grid points an image becomes: the wanted width and height in millimetres times the
resolution. A missing width is that of the image at one point per pixel, a missing height keeps the
aspect of the image.
-/

namespace BasRelief

/-- The wanted size in millimetres; a missing side follows from the image (`TargetSize`). -/
structure TargetSize (α : Type) where
  width : Option α := none
  height : Option α := none
  deriving DecidableEq, Repr

structure GridSides where
  cols : Nat
  rows : Nat
  deriving DecidableEq, Repr

namespace TargetSize
variable {α : Type} [Scalar α]

def sideFault? (name : String) : Option α → Option (ParameterError α)
  | some v => if Scalar.isPositive v then none else some (notPositive name v)
  | none => none

def widthFor (t : TargetSize α) (imageWidth : Nat) (steps : α) : α :=
  t.width.getD (Scalar.natural imageWidth / steps)

def heightFor (t : TargetSize α) (imageWidth imageHeight : Nat) (steps : α) : α :=
  t.height.getD
    (t.widthFor imageWidth steps * (Scalar.natural imageHeight / Scalar.natural imageWidth))

def points (length steps : α) : α := Scalar.maximum (Scalar.round (length * steps)) Scalar.one

/-- The sides of the grid for an image (`grid_dimensions`). -/
def gridSides (t : TargetSize α) (imageWidth imageHeight : Nat) (steps : α) :
    Except (ParameterError α) GridSides :=
  if imageWidth = 0 ∨ imageHeight = 0 then .error (.shape (.emptyImage imageWidth imageHeight))
  else match sideFault? "width_mm" t.width <|> sideFault? "height_mm" t.height with
    | some e => .error e
    | none =>
      let cols := points (t.widthFor imageWidth steps) steps
      let rows := points (t.heightFor imageWidth imageHeight steps) steps
      let most := Scalar.natural maxGridPoints
      if Scalar.atMost cols most && Scalar.atMost rows most then
        .ok ⟨Scalar.truncate cols, Scalar.truncate rows⟩
      else .error (.shape (.tooManyPoints cols rows))

end TargetSize
end BasRelief
