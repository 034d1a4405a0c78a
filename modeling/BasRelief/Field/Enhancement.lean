import BasRelief.Image.Library
import BasRelief.Scalar

/-!
# Relief enhancement

What is done to the intensities of an image before they become heights. Every enhancement keeps
the size of the image.
-/

namespace BasRelief

/-! ### Contrast and brightness -/

/-- The octet nearest to a scalar, within the range of octets; a half goes away from zero. -/
def octetOf {α : Type} [Scalar α] (v : α) : UInt8 :=
  UInt8.ofNat (Scalar.truncate (Scalar.clamp Scalar.zero (Scalar.natural 255) (Scalar.round v)))

def intensity {α : Type} [Scalar α] (v : UInt8) : α := Scalar.natural v.toNat

def meanIntensity (α : Type) [Scalar α] (r : Raster UInt8) : α :=
  let sum := r.toList.foldl (fun n v => n + v.toNat) 0
  Scalar.round (Scalar.natural sum / Scalar.natural (max (r.width * r.height) 1))

def contrastPixel {α : Type} [Scalar α] (mean factor : α) (v : UInt8) : UInt8 :=
  octetOf (mean + factor * (intensity v - mean))

/-- The intensities drawn apart around their mean (`scale_contrast`). -/
def scaleContrast {α : Type} [Scalar α] (factor : α) (r : Raster UInt8) : Raster UInt8 :=
  r.map (contrastPixel (meanIntensity α r) factor)

/-- The intensities with a common factor (`scale_brightness`). -/
def scaleBrightness {α : Type} [Scalar α] (factor : α) (r : Raster UInt8) : Raster UInt8 :=
  r.map fun v => octetOf (intensity v * factor)

/-! ### Enhancements -/

/-- The ways to enhance a relief (`ReliefEnhancement`). -/
inductive Enhancement where
  | none
  /-- Equalised, smoothed, with a little more contrast. -/
  | standard
  /-- Inverted, equalised, smoothed a little, a little brighter. -/
  | inverted
  /-- Much more contrast and stronger edges. -/
  | aggressive
  deriving DecidableEq, Repr

namespace Enhancement

/-- The enhanced intensities (`ReliefEnhancement::apply`). -/
def apply (lib : ImageLibrary) : Enhancement → Raster UInt8 → Raster UInt8
  | none, r => r
  | standard, r => scaleContrast (1.3 : Float) (lib.blur 1 (lib.equalize r))
  | inverted, r => scaleBrightness (1.1 : Float) (lib.blur 0.5 (lib.equalize (lib.invert r)))
  | aggressive, r => lib.sharpen 1 2 (scaleContrast (2.5 : Float) r)

/-! ### Laws -/

theorem hasSize_apply {lib : ImageLibrary} (hkeeps : lib.KeepsSizes) (e : Enhancement)
    (r : Raster UInt8) : (e.apply lib r).HasSize r.width r.height := by
  cases e with
  | none => exact ⟨rfl, rfl⟩
  | standard =>
    exact (Raster.hasSize_map _ _).trans ((hkeeps.blur _ _).trans (hkeeps.equalize r))
  | inverted =>
    exact (Raster.hasSize_map _ _).trans
      ((hkeeps.blur _ _).trans ((hkeeps.equalize _).trans (hkeeps.invert r)))
  | aggressive => exact (hkeeps.sharpen _ _ _).trans (Raster.hasSize_map _ r)

end Enhancement
end BasRelief
