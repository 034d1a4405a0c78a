import BasRelief.Image.Color

/-!
# Resampling

An image brought to another size with a windowed sinc of three lobes: first its columns, then its
rows, all in single precision. Whatever the pixels are, the result has the requested size.
-/

namespace BasRelief.Resample

/-! ### Kernel -/

def sinc (t : Float32) : Float32 :=
  if t == 0 then 1
  else
    let a := t * Float32.ofBits 0x40490fdb
    a.sin / a

def kernel (x : Float32) : Float32 := if x.abs < 3 then sinc x * sinc (x / 3) else 0

/-- The source pixels of one target pixel: where they start and their weights, which sum to one. -/
structure Window where
  start : Nat
  weights : List Float32

def clampInt (low high x : Int) : Int := max low (min high x)

/-- The window of a target pixel when `source` pixels become `target` pixels. -/
def window (source target index : Nat) : Window :=
  let ratio := source.toFloat32 / target.toFloat32
  let scale := if ratio < 1 then 1 else ratio
  let support := 3 * scale
  let center := (index.toFloat32 + 0.5) * ratio
  let left := clampInt 0 (source - 1) (center - support).floor.toInt64.toInt
  let right := clampInt (left + 1) source (center + support).ceil.toInt64.toInt
  let center := center - 0.5
  let start := left.toNat
  let weights := (List.range (right - left).toNat).map fun i =>
    kernel (((start + i).toFloat32 - center) / scale)
  let sum := weights.foldl (· + ·) 0
  ⟨start, weights.map (· / sum)⟩

def windows (source target : Nat) : Array Window :=
  Array.ofFn (n := target) fun i => window source target i

def apply (w : Window) (pixel : Nat → Float32) : Float32 :=
  (w.weights.zipIdx w.start).foldl (fun sum (weight, i) => sum + pixel i * weight) 0

/-! ### Planes -/

def resizeColumns (r : Raster UInt8) (height : Nat) : Raster Float32 :=
  let ws := windows r.height height
  .ofCells r.width height fun col row =>
    match ws[row]? with
    | some w => apply w fun i => (r.pixel col i).toNat.toFloat32
    | none => 0

def resizeRows (r : Raster Float32) (width : Nat) : Raster UInt8 :=
  let ws := windows r.width width
  .ofCells width r.height fun col row =>
    match ws[col]? with
    | some w => toOctet (apply w fun i => r.pixel i row)
    | none => 0

def resizePlane (r : Raster UInt8) (width height : Nat) : Raster UInt8 :=
  if r.width = width ∧ r.height = height then r
  else resizeRows (resizeColumns r height) width

def resizeColors (r : Raster Rgb) (width height : Nat) : Raster Rgb :=
  let red := resizePlane (r.map Rgb.red) width height
  let green := resizePlane (r.map Rgb.green) width height
  let blue := resizePlane (r.map Rgb.blue) width height
  .ofCells width height fun col row =>
    ⟨red.pixel col row, green.pixel col row, blue.pixel col row⟩

/-! ### Laws -/

theorem width_resizePlane (r : Raster UInt8) (w h : Nat) : (resizePlane r w h).width = w := by
  unfold resizePlane
  split
  · rename_i same
    exact same.1
  · rfl

theorem height_resizePlane (r : Raster UInt8) (w h : Nat) : (resizePlane r w h).height = h := by
  unfold resizePlane
  split
  · rename_i same
    exact same.2
  · rfl

end BasRelief.Resample
