import BasRelief.Image.Standard
import BasRelief.Proofs.Field.CellAccess
import BasRelief.Proofs.Field.Cells
import BasRelief.Proofs.Field.RowMajor
import BasRelief.Proofs.Field.SideResolution

/-!
# Cells and their pixels

The three fields of an image have the same sides, and in each row and column they hold what the
pixel there becomes: the height of its palette colour, a depth that falls with its intensity, or
whether it is darker than the threshold. In exact arithmetic the last two order the cells alike:
a cell is cut exactly if its height is above that of the threshold.
-/

namespace BasRelief

/-! ### Cells that show pixels -/

section
variable {α β : Type} [Inhabited β]

/-- Every cell holds what the pixel in its row and column becomes. -/
structure HeightGrid.Shows (g : HeightGrid α) (s : GridSides) (r : Raster β) (height : β → α) :
    Prop where
  sides : g.rows = s.rows ∧ g.cols = s.cols
  size : r.height = s.rows ∧ r.width = s.cols
  values_eq : g.values.toList = r.rows.flatMap fun row => row.map height
  row_eq : ∀ row, row < s.rows → g.row? row = some ((r.row row).map height)
  get_eq : ∀ row col, row < s.rows → col < s.cols →
    g.get? row col = some (height (r.pixel col row))

/-- Every cell is active if the pixel in its row and column makes it so. -/
structure ActiveMask.Shows (m : ActiveMask) (s : GridSides) (r : Raster β) (active : β → Bool) :
    Prop where
  sides : m.rows = s.rows ∧ m.cols = s.cols
  size : r.height = s.rows ∧ r.width = s.cols
  cells_eq : m.cells.toList = r.toList.map active
  active_eq : ∀ row col, row < s.rows → col < s.cols →
    m.active row col = active (r.pixel col row)

variable {s : GridSides} {r : Raster β} {row col : Nat}

theorem Raster.getElem?_map_pixels (f : β → α) (hcol : col < r.width) (hrow : row < r.height) :
    (r.pixels.map f)[cellIndex r.width row col]? = some (f (r.pixel col row)) := by
  rw [Array.getElem?_map, Raster.getElem?_pixels hcol hrow, Option.map_some]

/-- A row is cut out where the pixels of the row stand. -/
theorem HeightGrid.row?_map_pixels (f : β → α) (maxHeight : α) (hrow : row < r.height) :
    (⟨r.height, r.width, maxHeight, r.pixels.map f⟩ : HeightGrid α).row? row =
      some ((r.row row).map f) := by
  have hend : (row + 1) * r.width ≤ (r.pixels.map f).size := by
    rw [Array.size_map, r.size_eq, Nat.mul_comm r.width]
    exact Nat.mul_le_mul_right _ hrow
  obtain ⟨heights, hheights⟩ :
      ∃ heights, (⟨r.height, r.width, maxHeight, r.pixels.map f⟩ : HeightGrid α).row? row =
        some heights := ⟨_, row?_eq_some_iff.mpr ⟨hend, rfl⟩⟩
  rw [hheights]
  congr 1
  have hlength : heights.length = r.width := length_of_row? hheights
  refine List.ext_getElem? fun col => ?_
  obtain hcol | hcol := Nat.lt_or_ge col r.width
  · rw [getElem?_of_row? hheights hcol, Raster.getElem?_map_pixels f hcol hrow, List.getElem?_map,
      Raster.getElem?_row hcol, Option.map_some]
  · rw [List.getElem?_eq_none (by omega), List.getElem?_eq_none]
    rw [List.length_map, r.length_row]
    exact hcol

theorem HeightGrid.shows (hsize : r.HasSize s.cols s.rows) (f : β → α) (maxHeight : α) :
    (⟨s.rows, s.cols, maxHeight, r.pixels.map f⟩ : HeightGrid α).Shows s r f := by
  obtain ⟨hwidth, hheight⟩ := hsize
  rw [← hheight, ← hwidth]
  refine ⟨⟨hheight, hwidth⟩, ⟨hheight, hwidth⟩, ?_, fun row hrow => ?_, fun row col hrow hcol => ?_⟩
  · rw [r.flatMap_rows, Array.toList_map]
    rfl
  · exact row?_map_pixels f maxHeight (hheight ▸ hrow)
  · rw [← hheight] at hrow
    rw [← hwidth] at hcol
    rw [get?_eq_value hrow hcol]
    exact Raster.getElem?_map_pixels f hcol hrow

theorem ActiveMask.shows (hsize : r.HasSize s.cols s.rows) (f : β → Bool) :
    (⟨s.rows, s.cols, r.pixels.map f⟩ : ActiveMask).Shows s r f := by
  obtain ⟨hwidth, hheight⟩ := hsize
  rw [← hheight, ← hwidth]
  refine ⟨⟨hheight, hwidth⟩, ⟨hheight, hwidth⟩, Array.toList_map, fun row col hrow hcol => ?_⟩
  rw [← hheight] at hrow
  rw [← hwidth] at hcol
  rw [active_eq_getD hrow hcol, Raster.getElem?_map_pixels f hcol hrow, Option.getD_some]

theorem HeightGrid.Shows.get?_eq_some_iff {g : HeightGrid α} {f : β → α} (h : g.Shows s r f)
    {v : α} : g.get? row col = some v ↔
      (row < s.rows ∧ col < s.cols) ∧ f (r.pixel col row) = v := by
  by_cases hin : row < s.rows ∧ col < s.cols
  · rw [h.get_eq row col hin.1 hin.2, Option.some_inj, and_iff_right hin]
  · have hout : ¬(row < g.rows ∧ col < g.cols) := by rwa [h.sides.1, h.sides.2]
    rw [get?_eq_none hout]
    exact iff_of_false nofun fun hheight => hin hheight.1

theorem ActiveMask.Shows.active_iff {m : ActiveMask} {f : β → Bool} (h : m.Shows s r f) :
    m.active row col = true ↔ (row < s.rows ∧ col < s.cols) ∧ f (r.pixel col row) = true := by
  by_cases hin : row < s.rows ∧ col < s.cols
  · rw [h.active_eq row col hin.1 hin.2, and_iff_right hin]
  · have hout : ¬(row < m.rows ∧ col < m.cols) := by rwa [h.sides.1, h.sides.2]
    rw [active_eq_false hout]
    exact iff_of_false Bool.false_ne_true fun hactive => hin hactive.1

end

/-! ### Arithmetic in which the fields are made -/

namespace Field

/-- Arithmetic in which an image at accepted sides passes every check of a field, and in which
nothing is left to clamp of a height. -/
class Fits (α : Type) [Scalar α] : Prop where
  inRange {t : TargetSize α} {imageWidth imageHeight : Nat} {steps : α} {s : GridSides} :
    t.gridSides imageWidth imageHeight steps = .ok s → s.InRange
  refuses_heightOf (c : Rgb) :
    HeightGrid.refuses (Scalar.natural Palette.maxHeight : α)
      (Scalar.natural (Palette.heightOf c)) = false
  reliefHeight_eq {maxDepth : α} : depthFault? maxDepth = none → ∀ v : UInt8,
    reliefHeight maxDepth v = (Scalar.one - intensity v / Scalar.natural 255) * maxDepth
  refuses_reliefHeight {maxDepth : α} : depthFault? maxDepth = none → ∀ v : UInt8,
    HeightGrid.refuses maxDepth (reliefHeight maxDepth v) = false

instance : Fits Float where
  inRange := TargetSize.inRange_of_gridSides
  refuses_heightOf := Palette.refuses_heightOf
  reliefHeight_eq := reliefHeight_eq
  refuses_reliefHeight := refuses_reliefHeight

section
variable {maxDepth : Rat}

theorem depthFault?_eq_none_iff_exact : depthFault? maxDepth = none ↔ 0 ≤ maxDepth := by
  have hcheck : depthFault? maxDepth = none ↔ Scalar.atMost Scalar.zero maxDepth = true := by
    unfold depthFault?
    split <;> simp_all [Scalar.isFinite]
  rw [hcheck]
  exact decide_eq_true_iff

theorem one_sub_intensity_exact (v : UInt8) :
    (Scalar.one - intensity v / Scalar.natural 255 : Rat) = 1 - v.toNat / 255 := by
  show ((1 : Nat) : Rat) - v.toNat / ((255 : Nat) : Rat) = _
  norm_num

theorem one_sub_intensity_mem (v : UInt8) :
    0 ≤ (1 - v.toNat / 255 : Rat) ∧ (1 - v.toNat / 255 : Rat) ≤ 1 := by
  have hwhite : (v.toNat : Rat) ≤ 255 := by exact_mod_cast Nat.le_of_lt_succ v.toNat_lt
  have hshare : (v.toNat : Rat) / 255 ≤ 1 := div_le_one_of_le₀ hwhite (by norm_num)
  have hnonneg : (0 : Rat) ≤ v.toNat / 255 := by positivity
  constructor <;> linarith

theorem not_less_of_le {a b : Rat} (h : b ≤ a) : Scalar.less a b = false :=
  decide_eq_false h.not_gt

theorem reliefHeight_exact (hdepth : 0 ≤ maxDepth) (v : UInt8) :
    reliefHeight maxDepth v = (1 - v.toNat / 255) * maxDepth := by
  obtain ⟨hlow, hhigh⟩ := one_sub_intensity_mem v
  have hzero : Scalar.less ((1 - v.toNat / 255) * maxDepth) Scalar.zero = false :=
    not_less_of_le (mul_nonneg hlow hdepth)
  rw [reliefHeight, one_sub_intensity_exact, Scalar.clamp, hzero,
    not_less_of_le (mul_le_of_le_one_left hdepth hhigh)]
  rfl

theorem refuses_eq_false_of_le {maxHeight height : Rat} (hlow : 0 ≤ height)
    (hhigh : height ≤ maxHeight) : HeightGrid.refuses maxHeight height = false := by
  rw [HeightGrid.refuses, not_less_of_le hhigh, Bool.or_false]
  exact not_less_of_le hlow

instance : Fits Rat where
  inRange := TargetSize.inRange_exact
  refuses_heightOf c :=
    refuses_eq_false_of_le (Nat.cast_nonneg _) (Nat.cast_le.mpr (Palette.heightOf_le c))
  reliefHeight_eq h v := by
    rw [reliefHeight_exact (depthFault?_eq_none_iff_exact.mp h), one_sub_intensity_exact]
  refuses_reliefHeight h v := by
    have hdepth := depthFault?_eq_none_iff_exact.mp h
    obtain ⟨hlow, hhigh⟩ := one_sub_intensity_mem v
    rw [reliefHeight_exact hdepth]
    exact refuses_eq_false_of_le (mul_nonneg hlow hdepth) (mul_le_of_le_one_left hdepth hhigh)

end

/-! ### The three fields -/

/-- The three fields of an image in one arithmetic: they are made, and their cells are what the
pixels in the same rows and columns become. -/
def Agree (lib : ImageLibrary) (α : Type) [Scalar α] : Prop :=
  ∀ (steps : α) (image : Image) (size : TargetSize α) (s : GridSides) (maxDepth : α)
    (threshold : UInt8), sides steps image size = .ok s → depthFault? maxDepth = none →
    ∃ colors relief mask, colorGrid lib steps image size = .ok colors ∧
      grayscaleGrid lib steps image size maxDepth .none = .ok relief ∧
      activeMask lib steps image size threshold = .ok mask ∧
      colors.Shows s (lib.resizeColors image.toRgb s.cols s.rows)
        (fun c => Scalar.natural (Palette.heightOf c)) ∧
      relief.Shows s (lumaAt lib image s)
        (fun v => (Scalar.one - intensity v / Scalar.natural 255) * maxDepth) ∧
      mask.Shows s (lumaAt lib image s) (fun v => decide (v < threshold))

section
variable {lib : ImageLibrary} (hresizes : lib.Resizes) {α : Type} [Scalar α] [Fits α] {steps : α}
  {image : Image} {size : TargetSize α} {s : GridSides} {maxDepth : α}
include hresizes

theorem colorGrid_shows (h : sides steps image size = .ok s) :
    ∃ colors, colorGrid lib steps image size = .ok colors ∧
      colors.Shows s (lib.resizeColors image.toRgb s.cols s.rows)
        (fun c => Scalar.natural (Palette.heightOf c)) := by
  have hsize := hresizes.colors image.toRgb s.cols s.rows
  refine ⟨_, ?_, HeightGrid.shows hsize _ (Scalar.natural Palette.maxHeight)⟩
  unfold colorGrid
  rw [h]
  exact HeightGrid.new_pixels hsize (Fits.inRange h) Fits.refuses_heightOf

theorem grayscaleGrid_shows (h : sides steps image size = .ok s)
    (hd : depthFault? maxDepth = none) :
    ∃ relief, grayscaleGrid lib steps image size maxDepth .none = .ok relief ∧
      relief.Shows s (lumaAt lib image s)
        (fun v => (Scalar.one - intensity v / Scalar.natural 255) * maxDepth) := by
  have hsize := hasSize_lumaAt hresizes image s
  rw [← funext (Fits.reliefHeight_eq hd)]
  refine ⟨_, ?_, HeightGrid.shows hsize _ maxDepth⟩
  unfold grayscaleGrid
  rw [hd, h]
  exact HeightGrid.new_pixels hsize (Fits.inRange h) (Fits.refuses_reliefHeight hd)

theorem activeMask_shows (h : sides steps image size = .ok s) (threshold : UInt8) :
    ∃ mask, activeMask lib steps image size threshold = .ok mask ∧
      mask.Shows s (lumaAt lib image s) (fun v => decide (v < threshold)) := by
  have hsize := hasSize_lumaAt hresizes image s
  refine ⟨_, ?_, ActiveMask.shows hsize _⟩
  unfold activeMask
  rw [h]
  exact ActiveMask.new_pixels hsize (Fits.inRange h) _

theorem agree_of_fits : Agree lib α := by
  intro steps image size s maxDepth threshold hsides hdepth
  obtain ⟨colors, hcolors, hcolorCells⟩ := colorGrid_shows hresizes hsides
  obtain ⟨relief, hrelief, hreliefCells⟩ := grayscaleGrid_shows hresizes hsides hdepth
  obtain ⟨mask, hmask, hmaskCells⟩ := activeMask_shows hresizes hsides threshold
  exact ⟨colors, relief, mask, hcolors, hrelief, hmask, hcolorCells, hreliefCells, hmaskCells⟩

end

/-! ### One order of the cells -/

/-- A relief and the masks of all thresholds order the cells of an image alike. -/
structure SameOrder (maxDepth : Rat) (pixels : Raster UInt8) (relief : HeightGrid Rat)
    (mask : UInt8 → ActiveMask) : Prop where
  active_iff : ∀ threshold row col, (mask threshold).active row col = true ↔
    ∃ height, relief.get? row col = some height ∧
      (1 - threshold.toNat / 255) * maxDepth < height
  grows : ∀ threshold threshold', threshold ≤ threshold' → ∀ row col,
    (mask threshold).active row col = true → (mask threshold').active row col = true
  none_at_zero : ∀ row col, (mask 0).active row col = false
  darker_deeper : ∀ row col row' col' height height', relief.get? row col = some height →
    relief.get? row' col' = some height' → pixels.pixel col row ≤ pixels.pixel col' row' →
    height' ≤ height

section
variable {s : GridSides} {maxDepth : Rat} {pixels : Raster UInt8} {relief : HeightGrid Rat}
  {mask : UInt8 → ActiveMask}

theorem height_le_height_iff (hdepth : 0 < maxDepth) (v w : UInt8) :
    (1 - w.toNat / 255) * maxDepth ≤ (1 - v.toNat / 255) * maxDepth ↔ v ≤ w := by
  rw [mul_le_mul_iff_left₀ hdepth, sub_le_sub_iff_left, div_le_div_iff_of_pos_right (by norm_num),
    Nat.cast_le, UInt8.le_iff_toNat_le]

theorem sameOrder (hdepth : 0 < maxDepth)
    (hrelief : relief.Shows s pixels fun v => (1 - v.toNat / 255) * maxDepth)
    (hmask : ∀ threshold, (mask threshold).Shows s pixels fun v => decide (v < threshold)) :
    SameOrder maxDepth pixels relief mask := by
  have hactive : ∀ threshold row col, (mask threshold).active row col = true ↔
      (row < s.rows ∧ col < s.cols) ∧ pixels.pixel col row < threshold := by
    intro threshold row col
    rw [(hmask threshold).active_iff, decide_eq_true_iff]
  constructor
  case active_iff =>
    intro threshold row col
    rw [hactive, ← UInt8.not_le, ← height_le_height_iff hdepth threshold, not_le]
    constructor
    · rintro ⟨hin, habove⟩
      exact ⟨_, hrelief.get?_eq_some_iff.mpr ⟨hin, rfl⟩, habove⟩
    · rintro ⟨height, hheight, habove⟩
      obtain ⟨hin, rfl⟩ := hrelief.get?_eq_some_iff.mp hheight
      exact ⟨hin, habove⟩
  case grows =>
    intro threshold threshold' hle row col h
    obtain ⟨hin, hdark⟩ := (hactive _ _ _).mp h
    exact (hactive _ _ _).mpr ⟨hin, UInt8.lt_of_lt_of_le hdark hle⟩
  case none_at_zero =>
    intro row col
    refine eq_false_of_ne_true fun h => ?_
    exact UInt8.not_lt_zero ((hactive _ _ _).mp h).2
  case darker_deeper =>
    intro row col row' col' height height' hheight hheight' hdark
    obtain ⟨_, rfl⟩ := hrelief.get?_eq_some_iff.mp hheight
    obtain ⟨_, rfl⟩ := hrelief.get?_eq_some_iff.mp hheight'
    exact (height_le_height_iff hdepth _ _).mpr hdark

end

/-- Cell by cell the three fields of an image agree with its pixels, in the arithmetic of the
program and exactly; and exactly, a relief and the masks of all thresholds order the cells alike.
All that is asked of the resampling is the size of what it gives. -/
theorem fields_agree {lib : ImageLibrary} (hresizes : lib.Resizes) :
    Agree lib Float ∧ Agree lib Rat ∧
      ∀ (steps : Rat) (image : Image) (size : TargetSize Rat) (s : GridSides) (maxDepth : Rat),
        sides steps image size = .ok s → 0 < maxDepth →
        ∃ relief mask, grayscaleGrid lib steps image size maxDepth .none = .ok relief ∧
          (∀ threshold, activeMask lib steps image size threshold = .ok (mask threshold)) ∧
          SameOrder maxDepth (lumaAt lib image s) relief mask := by
  refine ⟨agree_of_fits hresizes, agree_of_fits hresizes, ?_⟩
  intro steps image size s maxDepth hsides hdepth
  obtain ⟨relief, hrelief, hcells⟩ :=
    grayscaleGrid_shows hresizes hsides (depthFault?_eq_none_iff_exact.mpr hdepth.le)
  choose mask hmask hmaskCells using fun threshold => activeMask_shows hresizes hsides threshold
  simp only [one_sub_intensity_exact] at hcells
  exact ⟨relief, mask, hrelief, hmask, sameOrder hdepth hcells hmaskCells⟩

/-- Three pixels by two, from black to white. -/
def shades : Image := .gray ⟨3, 2, #[0, 64, 128, 192, 224, 255], rfl⟩

theorem shades_agree :
    (∃ colors relief mask, colorGrid .standard 1.0 shades {} = .ok colors ∧
      grayscaleGrid .standard 1.0 shades {} (2.0 : Float) .none = .ok relief ∧
      activeMask .standard (1.0 : Float) shades {} 128 = .ok mask ∧ colors.rows = 2 ∧
      colors.cols = 3 ∧ relief.get? 0 0 = some 2.0 ∧ relief.get? 1 2 = some 0.0 ∧
      mask.active 0 1 = true ∧ mask.active 0 2 = false) ∧
      ∃ relief mask, grayscaleGrid .standard 1 shades {} (2 : Rat) .none = .ok relief ∧
        activeMask .standard (1 : Rat) shades {} 128 = .ok mask ∧
        (mask.active 0 1 = true ↔
          ∃ height, relief.get? 0 1 = some height ∧ (1 - 128 / 255) * 2 < height) := by
  have hsides : sides 1.0 shades ({} : TargetSize Float) = .ok ⟨3, 2⟩ := by decide +kernel
  have hexact : sides 1 shades ({} : TargetSize Rat) = .ok ⟨3, 2⟩ := by decide +kernel
  obtain ⟨hfloat, _, horder⟩ := fields_agree ImageLibrary.standard_resizes
  obtain ⟨colors, relief, mask, hcolors, hrelief, hmask, hcolorCells, hreliefCells, hmaskCells⟩ :=
    hfloat 1.0 shades {} ⟨3, 2⟩ 2.0 128 hsides (by decide +kernel)
  refine ⟨⟨colors, relief, mask, hcolors, hrelief, hmask, hcolorCells.sides.1,
    hcolorCells.sides.2, ?_, ?_, ?_, ?_⟩, ?_⟩
  · rw [hreliefCells.get_eq 0 0 (by decide) (by decide)]
    decide +kernel
  · rw [hreliefCells.get_eq 1 2 (by decide) (by decide)]
    decide +kernel
  · rw [hmaskCells.active_eq 0 1 (by decide) (by decide)]
    rfl
  · rw [hmaskCells.active_eq 0 2 (by decide) (by decide)]
    rfl
  · obtain ⟨relief, mask, hrelief, hmask, hordered⟩ :=
      horder 1 shades {} ⟨3, 2⟩ 2 hexact (by norm_num)
    exact ⟨relief, mask 128, hrelief, hmask 128, hordered.active_iff 128 0 1⟩

end Field
end BasRelief
