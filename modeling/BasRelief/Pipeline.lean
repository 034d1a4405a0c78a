import BasRelief.Config.Settings
import BasRelief.Field.Builder
import BasRelief.Image.File
import BasRelief.Toolpath.Generator

/-!
# From image to plan

A pipeline holds the settings, the last image and the last size it was given, and derives grids,
masks and plans from them. It keeps no result, so every answer depends on these three alone.
-/

namespace BasRelief

/-- Why there is no program (`CamToolError`). -/
inductive GenerationError where
  | notReady (reason : String)
  | image (e : ImageError)
  | failed (reason : String)
  | invalidParameters (reason : String)
  | parameter (e : ParameterError Float)
  deriving Repr

namespace GenerationError

def message : GenerationError → String
  | notReady reason => "Not ready: " ++ reason
  | image e => e.message
  | failed reason => "G-code generation failed: " ++ reason
  | invalidParameters reason => "Invalid parameters: " ++ reason
  | parameter e => "Parameter error: " ++ e.message

def isFailure : GenerationError → Bool
  | image _ => true
  | failed _ => true
  | _ => false

def isFatal : GenerationError → Bool
  | parameter e => e.isFatal
  | _ => false

/-- An error of the pass depths; one that ends the program stays what it is. -/
def ofPasses (e : ParameterError Float) : GenerationError :=
  if e.isFatal then parameter e else invalidParameters e.message

end GenerationError

/-- What a program is made of (`GenerationMode`). -/
inductive GenerationMode where
  | color
  | grayscale (maxDepth : Float) (enhancement : Enhancement)
  | binary (totalDepth : Float)

namespace GenerationMode

def grayscaleOf (s : GeneratorSettings) (e : Enhancement) : GenerationMode :=
  grayscale s.reliefDepth e

def binaryOf (s : GeneratorSettings) : GenerationMode := binary s.totalDepth

end GenerationMode

/-- The settings, the wanted size and the image at hand (`GenerationPipeline`). -/
structure Pipeline where
  settings : GeneratorSettings
  size : TargetSize Float := {}
  image? : Option Image := none

namespace Pipeline

/-- The pipeline with another size (`with_size`). -/
def withSize (p : Pipeline) (size : TargetSize Float) : Pipeline := { p with size := size }

/-- The pipeline with another image (`set_image`). -/
def setImage (p : Pipeline) (image : Image) : Pipeline := { p with image? := some image }

/-- The pipeline after an image was looked for: a failure leaves it as it was. -/
def load (p : Pipeline) : Except ImageError Image → Pipeline
  | .ok image => p.setImage image
  | .error _ => p

/-- Whether an image is at hand (`is_ready`). -/
def isReady (p : Pipeline) : Bool := p.image?.isSome

/-- The image at hand (`GenerationPipeline::image`). -/
def image (p : Pipeline) : Except GenerationError Image :=
  match p.image? with
  | some image => .ok image
  | none => .error (.notReady "no image loaded")

/-- The height grid of the image at hand (`height_grid`). -/
def heightGrid (lib : ImageLibrary) (p : Pipeline) (mode : GenerationMode) :
    Except GenerationError (HeightGrid Float) := do
  let image ← p.image
  let steps := p.settings.stepsPerMm
  match mode with
  | .color => (Field.colorGrid lib steps image p.size).mapError .parameter
  | .grayscale maxDepth enhancement =>
    (Field.grayscaleGrid lib steps image p.size maxDepth enhancement).mapError .parameter
  | .binary _ =>
    .error (.invalidParameters "binary mode produces an activity mask, not a height grid")

/-- The mask of the image at hand (`active_mask`). -/
def activeMask (lib : ImageLibrary) (p : Pipeline) : Except GenerationError ActiveMask := do
  let image ← p.image
  (Field.activeMask lib p.settings.stepsPerMm image p.size p.settings.threshold).mapError .parameter

/-- The plan of the image at hand (`generate_with_progress`). The parameters are looked at first. -/
def generate (lib : ImageLibrary) (p : Pipeline) (time : String) (mode : GenerationMode) :
    Except GenerationError (Plan Float) := do
  let generator ← (Generator.ofParameters p.settings.toolpath).mapError .parameter
  match mode with
  | .binary totalDepth =>
    let mask ← p.activeMask lib
    (generator.multiPass time mask totalDepth).mapError .ofPasses
  | mode =>
    let grid ← p.heightGrid lib mode
    return generator.singlePass time grid

/-- The plan of the image in a file (`generate_from_file`). -/
def generateFromFile (lib : ImageLibrary) (settings : GeneratorSettings) (time : String) (d : Disk)
    (path : String) (mode : GenerationMode) (size : TargetSize Float) :
    Except GenerationError (Plan Float) := do
  let image ← (Image.load lib d path).mapError .image
  ({ settings := settings, size := size, image? := some image } : Pipeline).generate lib time mode

/-! ### Laws -/

theorem load_error (p : Pipeline) (e : ImageError) : p.load (.error e) = p := rfl

end Pipeline
end BasRelief
