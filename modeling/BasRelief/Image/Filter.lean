import BasRelief.Image.Color

/-!
# Filters

Filters on intensities that keep the size of the image: equalisation of the histogram, blurring,
and sharpening of edges. They compute in single precision, one rounding per operation.
-/

namespace BasRelief.Filter

def invert (r : Raster UInt8) : Raster UInt8 := r.map fun v => 255 - v

/-! ### Histogram -/

def histogram (r : Raster UInt8) : Array Nat :=
  r.toList.foldl (fun counts v => counts.modify v.toNat (· + 1)) (Array.replicate 256 0)

def cumulative (r : Raster UInt8) : Array Nat :=
  ((histogram r).foldl (fun (sums, total) n => (sums.push (total + n), total + n)) (#[], 0)).1

/-- The octet below a value, within the range of octets. -/
def truncateOctet (x : Float32) : UInt8 := x.toUInt8

def equalize (r : Raster UInt8) : Raster UInt8 :=
  let sums := cumulative r
  let total := (sums[255]?.getD 0).toFloat32
  let table := sums.map fun n => truncateOctet (255 * (n.toFloat32 / total))
  r.map fun v => table[v.toNat]?.getD 0

/-! ### Blur -/

def weigh (weights : List Float32) (pixel : Int → Float32) : Float32 :=
  let reach : Int := weights.length / 2
  weights.zipIdx.foldl (fun sum (k, i) => sum + pixel (i - reach) * k) 0

def pixelValue (v : UInt8) : Float32 := v.toNat.toFloat32

def blurRows (weights : List Float32) (r : Raster UInt8) : Raster UInt8 :=
  .ofCells r.width r.height fun col row =>
    truncateOctet (weigh weights fun d => pixelValue (r.atEdge (col + d) row))

def blurColumns (weights : List Float32) (r : Raster UInt8) : Raster UInt8 :=
  .ofCells r.width r.height fun col row =>
    truncateOctet (weigh weights fun d => pixelValue (r.atEdge col (row + d)))

/-- Blurs in both directions, rounding downwards after each. -/
def blur (weights : List Float32) (r : Raster UInt8) : Raster UInt8 :=
  blurColumns weights (blurRows weights r)

/-- Weights of a bell curve with deviation one. -/
def wideBell : List Float32 :=
  [0x3d5f2f87, 0x3e7a0feb, 0x3ece2434, 0x3e7a0feb, 0x3d5f2f87].map Float32.ofBits

/-- Weights of a bell curve with deviation one half. -/
def narrowBell : List Float32 := [0x3dda2055, 0x3f4977eb, 0x3dda2055].map Float32.ofBits

/-! ### Sharpening -/

/-- A symmetric weighted sum over five pixels, from the middle outwards by weight. -/
def symmetricFive (pixel : Int → Float32) : Float32 :=
  let sum := pixel 0 * Float32.ofBits 0x3ece2434
  let sum := sum + (pixel (-2) + pixel 2) * Float32.ofBits 0x3d5f2f88
  sum + (pixel (-1) + pixel 1) * Float32.ofBits 0x3e7a0fec

/-- The image that edges are measured against: blurred in both directions and rounded at the end. -/
def softened (r : Raster UInt8) : Raster UInt8 :=
  let rows : Raster Float32 := .ofCells r.width r.height fun col row =>
    symmetricFive fun d => pixelValue (r.atEdge (col + d) row)
  .ofCells r.width r.height fun col row =>
    toOctet (symmetricFive fun d => rows.atEdge col (row + d))

def sharpenPixel (v soft : UInt8) : UInt8 :=
  let gap : Int := (v.toNat : Int) - soft.toNat
  if 2 < gap.natAbs then UInt8.ofNat (min 255 (v.toNat + gap).toNat) else v

def sharpen (r : Raster UInt8) : Raster UInt8 :=
  let soft := softened r
  .ofCells r.width r.height fun col row => sharpenPixel (r.pixel col row) (soft.pixel col row)

end BasRelief.Filter
