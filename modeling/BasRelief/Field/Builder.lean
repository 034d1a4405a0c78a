import BasRelief.Field.ActiveMask
import BasRelief.Field.Enhancement
import BasRelief.Field.TargetSize

/-!
# Fields from images

An image brought to the size of the grid and turned, pixel by pixel, into heights or into cells
that are cut. The top row of the image is the first row of the field.
-/

namespace BasRelief.Field
variable {α : Type} [Scalar α]

/-- The sides of the grid for an image (`HeightFieldBuilder::dimensions`). -/
def sides (steps : α) (image : Image) (size : TargetSize α) : Except (ParameterError α) GridSides :=
  size.gridSides image.width image.height steps

/-- The palette heights of an image (`color_grid`). -/
def colorGrid (lib : ImageLibrary) (steps : α) (image : Image) (size : TargetSize α) :
    Except (ParameterError α) (HeightGrid α) := do
  let s ← sides steps image size
  let pixels := lib.resizeColors image.toRgb s.cols s.rows
  let heights := pixels.pixels.map fun c => Scalar.natural (Palette.heightOf c)
  HeightGrid.new s.rows s.cols heights (Scalar.natural Palette.maxHeight)

/-- The height of an intensity: white is the surface, black the greatest depth. -/
def reliefHeight (maxDepth : α) (v : UInt8) : α :=
  Scalar.clamp Scalar.zero maxDepth
    ((Scalar.one - intensity v / Scalar.natural 255) * maxDepth)

def depthFault? (maxDepth : α) : Option (ParameterError α) :=
  if Scalar.isFinite maxDepth && Scalar.atMost Scalar.zero maxDepth then none
  else some (notPositive "max_depth" maxDepth)

/-- The relief of an image (`grayscale_grid`). -/
def grayscaleGrid (lib : ImageLibrary) (steps : α) (image : Image) (size : TargetSize α)
    (maxDepth : α) (enhancement : Enhancement) : Except (ParameterError α) (HeightGrid α) := do
  if let some e := depthFault? maxDepth then throw e
  let s ← sides steps image size
  let pixels := enhancement.apply lib (lib.resizePlane image.toLuma s.cols s.rows)
  HeightGrid.new s.rows s.cols (pixels.pixels.map (reliefHeight maxDepth)) maxDepth

/-- The cells of an image that are cut (`active_mask`). -/
def activeMask (lib : ImageLibrary) (steps : α) (image : Image) (size : TargetSize α)
    (threshold : UInt8) : Except (ParameterError α) ActiveMask := do
  let s ← sides steps image size
  let pixels := lib.resizePlane image.toLuma s.cols s.rows
  ActiveMask.new s.rows s.cols (pixels.pixels.map fun v => isActive v threshold)

end BasRelief.Field
