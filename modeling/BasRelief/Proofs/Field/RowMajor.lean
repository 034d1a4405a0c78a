import BasRelief.Field.HeightGrid
import BasRelief.Image.Raster

/-!
# Rows of one width

Rows of one width that are laid end to end start at the multiples of that width. So the rows of a
raster, one after another, are its pixels, and a pixel stands where a grid of the same sides keeps
the cell in its row and column.
-/

namespace BasRelief

/-! ### Lists of rows -/

theorem length_flatMap_range {β : Type} {f : Nat → List β} {rows width : Nat}
    (h : ∀ row < rows, (f row).length = width) :
    ((List.range rows).flatMap f).length = rows * width := by
  induction rows with
  | zero => simp
  | succ rows ih =>
    rw [List.range_succ, List.flatMap_append, List.length_append,
      ih fun row hrow => h row (Nat.lt_succ_of_lt hrow), List.flatMap_singleton,
      h rows (Nat.lt_succ_self rows), Nat.succ_mul]

theorem getElem?_flatMap_range {β : Type} {f : Nat → List β} {rows width : Nat}
    (h : ∀ row < rows, (f row).length = width) {row place : Nat} (hrow : row < rows)
    (hplace : place < width) :
    ((List.range rows).flatMap f)[row * width + place]? = (f row)[place]? := by
  induction rows with
  | zero => omega
  | succ rows ih =>
    have hbefore : ∀ row < rows, (f row).length = width := fun r hr => h r (Nat.lt_succ_of_lt hr)
    have hlength := length_flatMap_range hbefore
    rw [List.range_succ, List.flatMap_append, List.flatMap_singleton]
    obtain hlt | rfl := Nat.lt_succ_iff_lt_or_eq.mp hrow
    · have hend : (row + 1) * width ≤ rows * width := Nat.mul_le_mul_right width hlt
      rw [Nat.succ_mul] at hend
      rw [List.getElem?_append_left (by omega), ih hbefore hlt]
    · rw [List.getElem?_append_right (by omega), hlength, Nat.add_sub_cancel_left]

/-! ### Rasters -/

namespace Raster
variable {α β : Type} [Inhabited β] {r : Raster β}

/-- The pixels of a row, from the left. -/
def row (r : Raster β) (i : Nat) : List β := (List.range r.width).map fun col => r.pixel col i

/-- The rows, from the top. -/
def rows (r : Raster β) : List (List β) := (List.range r.height).map r.row

theorem length_row (r : Raster β) (i : Nat) : (r.row i).length = r.width := by simp [row]

theorem getElem?_row {i col : Nat} (hcol : col < r.width) :
    (r.row i)[col]? = some (r.pixel col i) := by
  simp [row, hcol]

theorem getElem?_pixels {i col : Nat} (hcol : col < r.width) (hi : i < r.height) :
    r.pixels[cellIndex r.width i col]? = some (r.pixel col i) := by
  have hindex : cellIndex r.width i col < r.pixels.size := by
    rw [r.size_eq, Nat.mul_comm]
    exact cellIndex_lt hi hcol
  rw [pixel, ← cellIndex, Array.getElem?_eq_getElem hindex, Option.getD_some]

/-- The rows laid end to end are the pixels. -/
theorem toList_eq_flatMap_range (r : Raster β) : r.toList = (List.range r.height).flatMap r.row := by
  have hrows : ∀ i < r.height, (r.row i).length = r.width := fun i _ => r.length_row i
  have hlength := length_flatMap_range hrows
  refine List.ext_getElem? fun n => ?_
  obtain hn | hn := Nat.lt_or_ge n (r.height * r.width)
  · have hwidth : 0 < r.width := Nat.pos_of_mul_pos_left (Nat.zero_lt_of_lt hn)
    have hcol := Nat.mod_lt n hwidth
    have hi : n / r.width < r.height := (Nat.div_lt_iff_lt_mul hwidth).mpr hn
    have hplace : cellIndex r.width (n / r.width) (n % r.width) = n := Nat.div_add_mod' n r.width
    have hpixel := getElem?_pixels hcol hi
    have hcell := getElem?_flatMap_range hrows hi hcol
    rw [← cellIndex, hplace, getElem?_row hcol] at hcell
    rw [hplace] at hpixel
    rw [hcell, toList, Array.getElem?_toList, hpixel]
  · have hpixels : r.toList.length = r.height * r.width := by rw [length_toList, Nat.mul_comm]
    rw [List.getElem?_eq_none (by omega), List.getElem?_eq_none (by omega)]

theorem flatMap_rows (r : Raster β) (f : β → α) :
    (r.rows.flatMap fun row => row.map f) = r.toList.map f := by
  rw [rows, List.flatMap_map, toList_eq_flatMap_range, List.map_flatMap]

end Raster
end BasRelief
