/-!
# Rasters

A rectangle of pixels, row by row from the top. The number of pixels is part of the type, so every
operation below says what size it gives.
-/

namespace BasRelief

structure Raster (α : Type) where
  width : Nat
  height : Nat
  pixels : Array α
  size_eq : pixels.size = width * height

namespace Raster
variable {α β : Type}

def ofCells (width height : Nat) (cell : Nat → Nat → α) : Raster α where
  width := width
  height := height
  pixels := Array.ofFn (n := width * height) fun i => cell (i % width) (i / width)
  size_eq := by simp

def map (f : α → β) (r : Raster α) : Raster β where
  width := r.width
  height := r.height
  pixels := r.pixels.map f
  size_eq := by simp [r.size_eq]

def pixel [Inhabited α] (r : Raster α) (col row : Nat) : α :=
  (r.pixels[row * r.width + col]?).getD default

/-- The pixel in a column and row, with the edge pixels repeated outwards. -/
def atEdge [Inhabited α] (r : Raster α) (col row : Int) : α :=
  r.pixel (min col.toNat (r.width - 1)) (min row.toNat (r.height - 1))

def toList (r : Raster α) : List α := r.pixels.toList

structure HasSize (r : Raster α) (width height : Nat) : Prop where
  width_eq : r.width = width
  height_eq : r.height = height

/-! ### Laws -/

@[simp] theorem width_map (f : α → β) (r : Raster α) : (r.map f).width = r.width := rfl

@[simp] theorem height_map (f : α → β) (r : Raster α) : (r.map f).height = r.height := rfl

@[simp] theorem width_ofCells (w h : Nat) (cell : Nat → Nat → α) : (ofCells w h cell).width = w :=
  rfl

@[simp] theorem height_ofCells (w h : Nat) (cell : Nat → Nat → α) :
    (ofCells w h cell).height = h := rfl

theorem HasSize.trans {r : Raster α} {s : Raster β} {w h : Nat} (hr : r.HasSize s.width s.height)
    (hs : s.HasSize w h) : r.HasSize w h :=
  ⟨hr.width_eq.trans hs.width_eq, hr.height_eq.trans hs.height_eq⟩

theorem hasSize_map (f : α → β) (r : Raster α) : (r.map f).HasSize r.width r.height := ⟨rfl, rfl⟩

theorem length_toList (r : Raster α) : r.toList.length = r.width * r.height := by
  simp [toList, r.size_eq]

theorem toList_map (f : α → β) (r : Raster α) : (r.map f).toList = r.toList.map f := by
  simp [toList, map]

theorem map_eq_self {f : α → α} {r : Raster α} (h : ∀ p ∈ r.toList, f p = p) : r.map f = r := by
  obtain ⟨width, height, pixels, size_eq⟩ := r
  have hpixels : pixels.map f = pixels := by
    apply Array.toList_inj.mp
    rw [Array.toList_map]
    exact (List.map_congr_left h).trans (List.map_id _)
  simp only [map, hpixels]

end Raster
end BasRelief
