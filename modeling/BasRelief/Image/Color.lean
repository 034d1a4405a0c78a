import BasRelief.Field.Palette
import BasRelief.Image.Raster

/-!
# Images

An image is seen in two ways: as plain colours and as intensities. Images of intensities, of
colours, and of colours with opacity are made from their pixels; the intensity of a colour is
computed in single precision, one rounding per operation.
-/

namespace BasRelief

instance : Inhabited Rgb := ⟨⟨0, 0, 0⟩⟩

structure Rgba where
  color : Rgb
  opacity : UInt8
  deriving DecidableEq, Repr

/-- An image as its two views, which have one size. -/
structure Image where
  toRgb : Raster Rgb
  toLuma : Raster UInt8
  width_eq : toLuma.width = toRgb.width
  height_eq : toLuma.height = toRgb.height

/-- The octet nearest to a value, within the range of octets; a half goes upwards. -/
def toOctet (x : Float32) : UInt8 := x.round.toUInt8

namespace Rgb

def gray (v : UInt8) : Rgb := ⟨v, v, v⟩

def weighted (v : UInt8) (weight : Float32) : Float32 :=
  v.toNat.toFloat32 * Float32.ofBits 0x3b808081 * weight

def luma (c : Rgb) : UInt8 :=
  let sum := 0 + weighted c.red (Float32.ofBits 0x3e59c05b)
  let sum := sum + weighted c.green (Float32.ofBits 0x3f3715fc)
  let sum := sum + weighted c.blue (Float32.ofBits 0x3d93cf75)
  toOctet (sum * 255)

end Rgb

namespace Image

def width (i : Image) : Nat := i.toRgb.width

def height (i : Image) : Nat := i.toRgb.height

def gray (r : Raster UInt8) : Image where
  toRgb := r.map Rgb.gray
  toLuma := r
  width_eq := rfl
  height_eq := rfl

def rgb (r : Raster Rgb) : Image where
  toRgb := r
  toLuma := r.map Rgb.luma
  width_eq := rfl
  height_eq := rfl

/-- The opacity is seen in neither view. -/
def rgba (r : Raster Rgba) : Image := rgb (r.map Rgba.color)

end Image
end BasRelief
