import BasRelief.Field.Builder
import BasRelief.Proofs.Field.GridSides
import BasRelief.Proofs.Field.NearestColor
import BasRelief.Proofs.Number.Overflow

/-!
# Cells out of pixels

The heights that pixels become lie between zero and the bound of their grid, and there are as many
of them as cells. So the checks of a grid or a mask refuse nothing that was made from an image:
the field is the one that would be made without them.
-/

namespace BasRelief
open Double

section
variable {α β : Type} {r : Raster β} {s : GridSides} (hsize : r.HasSize s.cols s.rows)
include hsize

theorem Raster.size_pixels : r.pixels.size = s.rows * s.cols := by
  rw [r.size_eq, hsize.width_eq, hsize.height_eq, Nat.mul_comm]

theorem HeightGrid.new_pixels [Scalar α] (hrange : s.InRange) {f : β → α} {maxHeight : α}
    (h : ∀ p, refuses maxHeight (f p) = false) :
    new s.rows s.cols (r.pixels.map f) maxHeight =
      .ok ⟨s.rows, s.cols, maxHeight, r.pixels.map f⟩ := by
  refine new_eq_ok_iff.mpr ⟨rfl, hrange.countable, ?_, fun v hv => ?_⟩
  · rw [Array.size_map]
    exact Raster.size_pixels hsize
  · obtain ⟨p, _, rfl⟩ := Array.mem_map.mp hv
    exact h p

theorem ActiveMask.new_pixels (hrange : s.InRange) (f : β → Bool) :
    new s.rows s.cols (r.pixels.map f) =
      (.ok ⟨s.rows, s.cols, r.pixels.map f⟩ : Except (ParameterError α) ActiveMask) := by
  refine new_eq_ok_iff.mpr ⟨rfl, hrange.countable, ?_⟩
  rw [Array.size_map]
  exact Raster.size_pixels hsize

end

/-! ### Heights of colours -/

namespace Palette

theorem nearestOf_mem (color : Rgb) (first : PaletteEntry) (rest : List PaletteEntry) :
    nearestOf color first rest ∈ first :: rest := by
  obtain ⟨_, hnearest⟩ := firstNearest_nearestOf color first rest
  exact List.mem_of_getElem? hnearest.getElem?_eq

theorem heightOf_le (color : Rgb) : heightOf color ≤ maxHeight := by
  have hentries : ∀ entry ∈ entries, entry.height ≤ maxHeight := by decide
  exact hentries _ (nearestOf_mem color white others)

theorem refuses_heightOf (color : Rgb) :
    HeightGrid.refuses (Scalar.natural maxHeight : Float) (Scalar.natural (heightOf color)) =
      false := by
  have hheights : ∀ n ≤ maxHeight,
      HeightGrid.refuses (Scalar.natural maxHeight : Float) (Scalar.natural n) = false := by
    decide +kernel
  exact hheights _ (heightOf_le color)

end Palette

/-! ### Heights of intensities -/

namespace Field

theorem upTo_intensity (v : UInt8) :
    UpTo 1 (intensity v / Scalar.natural 255 : Float) := by
  have hwhite : value? (Scalar.natural 255 : Float) = some 255 := by decide +kernel
  have hv : value? (intensity v : Float) = some (v.toNat : Rat) :=
    value?_ofNat (v.toNat_lt.trans (by norm_num))
  have hle : (v.toNat : Rat) ≤ 255 := by
    have := v.toNat_lt
    exact_mod_cast Nat.le_of_lt_succ this
  exact (rounds_div hv hwhite (by norm_num)).upTo value?_one (by positivity)
    (div_le_one_of_le₀ hle (by norm_num))

theorem depthFault?_eq_none_iff {maxDepth : Float} :
    depthFault? maxDepth = none ↔ ∃ d, value? maxDepth = some d ∧ 0 ≤ d := by
  have hcheck : depthFault? maxDepth = none ↔
      (Scalar.isFinite maxDepth && Scalar.atMost Scalar.zero maxDepth) = true := by
    unfold depthFault?
    split <;> simp_all
  rw [hcheck, Bool.and_eq_true, isFinite_iff]
  constructor
  · rintro ⟨⟨d, hd⟩, hnonneg⟩
    exact ⟨d, hd, (atMost_iff value?_zero hd).mp hnonneg⟩
  · rintro ⟨d, hd, hnonneg⟩
    exact ⟨⟨d, hd⟩, (atMost_iff value?_zero hd).mpr hnonneg⟩

theorem upTo_mul_maxDepth {maxDepth : Float} {d : Rat} (hd : value? maxDepth = some d)
    (hnonneg : 0 ≤ d) (v : UInt8) :
    UpTo d ((Scalar.one - intensity v / Scalar.natural 255) * maxDepth) := by
  obtain ⟨q, hq, hq0, hq1⟩ := upTo_intensity v
  obtain ⟨r, hr, hr0, hr1⟩ := (rounds_sub value?_one hq).upTo value?_one (by linarith) (by linarith)
  exact (rounds_mul hr hd).upTo hd (mul_nonneg hr0 hnonneg) (mul_le_of_le_one_left hnonneg hr1)

/-- Rounding keeps the product between zero and the depth, so nothing is left to clamp. -/
theorem reliefHeight_eq {maxDepth : Float} (h : depthFault? maxDepth = none) (v : UInt8) :
    reliefHeight maxDepth v = (Scalar.one - intensity v / Scalar.natural 255) * maxDepth := by
  obtain ⟨d, hd, hnonneg⟩ := depthFault?_eq_none_iff.mp h
  have hproduct := upTo_mul_maxDepth hd hnonneg v
  rw [reliefHeight, Scalar.clamp, hproduct.less_zero, hproduct.less_bound hd]
  rfl

theorem refuses_reliefHeight {maxDepth : Float} (h : depthFault? maxDepth = none) (v : UInt8) :
    HeightGrid.refuses maxDepth (reliefHeight maxDepth v) = false := by
  obtain ⟨d, hd, hnonneg⟩ := depthFault?_eq_none_iff.mp h
  have hproduct := upTo_mul_maxDepth hd hnonneg v
  rw [reliefHeight_eq h, HeightGrid.refuses, hproduct.isFinite, hproduct.less_zero,
    hproduct.less_bound hd]
  rfl

/-! ### Fields without checks -/

section
variable (lib : ImageLibrary) (image : Image)

/-- The pixels of an image at the sides of a grid. -/
def lumaAt (s : GridSides) : Raster UInt8 := lib.resizePlane image.toLuma s.cols s.rows

def colors (s : GridSides) : HeightGrid Float where
  rows := s.rows
  cols := s.cols
  maxHeight := Scalar.natural Palette.maxHeight
  values := (lib.resizeColors image.toRgb s.cols s.rows).pixels.map fun c =>
    Scalar.natural (Palette.heightOf c)

def relief (maxDepth : Float) (enhancement : Enhancement) (s : GridSides) : HeightGrid Float where
  rows := s.rows
  cols := s.cols
  maxHeight := maxDepth
  values := (enhancement.apply lib (lumaAt lib image s)).pixels.map (reliefHeight maxDepth)

def cells (threshold : UInt8) (s : GridSides) : ActiveMask where
  rows := s.rows
  cols := s.cols
  cells := (lumaAt lib image s).pixels.map fun v => isActive v threshold

end

section
variable {lib : ImageLibrary} (hresizes : lib.Resizes) (image : Image)
include hresizes

theorem hasSize_lumaAt (s : GridSides) : (lumaAt lib image s).HasSize s.cols s.rows :=
  hresizes.plane _ _ _

theorem size_colors (s : GridSides) : (colors lib image s).values.size = s.rows * s.cols := by
  rw [colors, Array.size_map]
  exact Raster.size_pixels (hresizes.colors _ _ _)

theorem size_cells (threshold : UInt8) (s : GridSides) :
    (cells lib image threshold s).cells.size = s.rows * s.cols := by
  rw [cells, Array.size_map]
  exact Raster.size_pixels (hasSize_lumaAt hresizes image s)

variable (steps : Float) (size : TargetSize Float)

theorem colorGrid_eq :
    colorGrid lib steps image size = (sides steps image size).map (colors lib image) := by
  unfold colorGrid
  cases hsides : sides steps image size with
  | error e => rfl
  | ok s =>
    have hrange := TargetSize.inRange_of_gridSides hsides
    exact HeightGrid.new_pixels (hresizes.colors _ _ _) hrange Palette.refuses_heightOf

theorem activeMask_eq (threshold : UInt8) :
    activeMask lib steps image size threshold =
      (sides steps image size).map (cells lib image threshold) := by
  unfold activeMask
  cases hsides : sides steps image size with
  | error e => rfl
  | ok s =>
    have hrange := TargetSize.inRange_of_gridSides hsides
    exact ActiveMask.new_pixels (hasSize_lumaAt hresizes image s) hrange _

/-! ### Enhanced fields -/

variable (hkeeps : lib.KeepsSizes)
include hkeeps

theorem hasSize_enhanced (enhancement : Enhancement) (s : GridSides) :
    (enhancement.apply lib (lumaAt lib image s)).HasSize s.cols s.rows :=
  (enhancement.hasSize_apply hkeeps _).trans (hasSize_lumaAt hresizes image s)

theorem size_relief (maxDepth : Float) (enhancement : Enhancement) (s : GridSides) :
    (relief lib image maxDepth enhancement s).values.size = s.rows * s.cols := by
  rw [relief, Array.size_map]
  exact Raster.size_pixels (hasSize_enhanced hresizes image hkeeps enhancement s)

theorem grayscaleGrid_eq {maxDepth : Float} (h : depthFault? maxDepth = none)
    (enhancement : Enhancement) :
    grayscaleGrid lib steps image size maxDepth enhancement =
      (sides steps image size).map (relief lib image maxDepth enhancement) := by
  unfold grayscaleGrid
  rw [h]
  cases hsides : sides steps image size with
  | error e => rfl
  | ok s =>
    have hrange := TargetSize.inRange_of_gridSides hsides
    exact HeightGrid.new_pixels (hasSize_enhanced hresizes image hkeeps enhancement s) hrange
      (refuses_reliefHeight h)

end

theorem grayscaleGrid_of_fault (lib : ImageLibrary) (image : Image) (steps : Float)
    (size : TargetSize Float) {maxDepth : Float} {e : ParameterError Float}
    (h : depthFault? maxDepth = some e) (enhancement : Enhancement) :
    grayscaleGrid lib steps image size maxDepth enhancement = .error e := by
  unfold grayscaleGrid
  rw [h]
  rfl

end Field
end BasRelief
