import BasRelief.Proofs.Field.RowMajor
import BasRelief.Proofs.Toolpath.Coverage

/-!
# The order of a surface scan

A single pass cuts every cell of a height grid once, and the place of each cut in the program has a
closed form: a row takes as many moves as it has cells and one more that lifts the tool, so every
row starts at a multiple of that width. The last row is followed by no lift of its own.
-/

namespace BasRelief

/-! ### Rows -/

/-- The column that a row visits at the given place. -/
def zigzagColumn (row cols place : Nat) : Nat := if row % 2 = 0 then place else cols - 1 - place

theorem zigzagColumn_lt {row cols place : Nat} (h : place < cols) :
    zigzagColumn row cols place < cols := by
  unfold zigzagColumn
  split <;> omega

theorem getElem?_zigzagColumns {row cols place : Nat} (h : place < cols) :
    (zigzagColumns row cols)[place]? = some (zigzagColumn row cols place) := by
  unfold zigzagColumns zigzagColumn
  split
  · exact List.getElem?_range h
  · rw [List.getElem?_reverse (by rwa [List.length_range]), List.length_range,
      List.getElem?_range (by omega)]

/-- A row starts in the column where the row before it ends. -/
theorem getLast?_zigzagColumns (row cols : Nat) :
    (zigzagColumns row cols).getLast? = (zigzagColumns (row + 1) cols).head? := by
  unfold zigzagColumns
  obtain heven | hodd := Nat.mod_two_eq_zero_or_one row
  · rw [if_pos heven, if_neg (by omega), List.head?_reverse]
  · rw [if_neg (by omega), if_pos (by omega), List.getLast?_reverse]

/-! ### Cells -/

/-- The cells of a grid in the order of a surface scan. -/
def scanCells (rows cols : Nat) : List (Nat × Nat) :=
  (List.range rows).flatMap fun row => (zigzagColumns row cols).map (Prod.mk row)

/-- Cells that differ by one in their row or in their column, and not in the other. -/
inductive Neighbours : Nat × Nat → Nat × Nat → Prop where
  | inRow {row col next : Nat} (h : Adjacent col next) : Neighbours (row, col) (row, next)
  | inColumn {row next col : Nat} (h : Adjacent row next) : Neighbours (row, col) (next, col)

theorem mem_scanCells {rows cols row col : Nat} :
    (row, col) ∈ scanCells rows cols ↔ row < rows ∧ col < cols := by
  simp only [scanCells, List.mem_flatMap, List.mem_range, List.mem_map, Prod.mk.injEq,
    mem_zigzagColumns]
  constructor
  · rintro ⟨_, hrow, _, hcol, rfl, rfl⟩
    exact ⟨hrow, hcol⟩
  · rintro ⟨hrow, hcol⟩
    exact ⟨row, hrow, col, hcol, rfl, rfl⟩

theorem nodup_scanCells (rows cols : Nat) : (scanCells rows cols).Nodup := by
  rw [scanCells, List.nodup_flatMap]
  constructor
  · intro row _
    exact (ActiveMask.nodup_zigzagColumns row cols).map (Prod.mk_right_injective row)
  · refine List.nodup_range.imp fun {r s} hne cell hr hs => ?_
    obtain ⟨_, _, rfl⟩ := List.mem_map.mp hr
    obtain ⟨_, _, heq⟩ := List.mem_map.mp hs
    exact hne (Prod.mk.inj heq).1.symm

theorem count_scanCells (rows cols row col : Nat) :
    (scanCells rows cols).count (row, col) = if row < rows ∧ col < cols then 1 else 0 := by
  split
  · exact List.count_eq_one_of_mem (nodup_scanCells rows cols) (mem_scanCells.mpr ‹_›)
  · exact List.count_eq_zero_of_not_mem fun h => ‹¬_› (mem_scanCells.mp h)

/-- Within a row the scan goes on to the column beside; at its end it goes on to the row below. -/
theorem isChain_scanCells {rows cols : Nat} (hcols : cols ≠ 0) :
    (scanCells rows cols).IsChain Neighbours := by
  have hne : [] ∉ (List.range rows).map fun row => (zigzagColumns row cols).map (Prod.mk row) := by
    intro h
    obtain ⟨row, _, hnil⟩ := List.mem_map.mp h
    have hlength := congrArg List.length hnil
    rw [List.length_map, length_zigzagColumns] at hlength
    exact hcols hlength
  rw [scanCells, List.flatMap_def, List.isChain_flatten hne]
  constructor
  case left =>
    intro cells h
    obtain ⟨row, _, rfl⟩ := List.mem_map.mp h
    exact List.isChain_map_of_isChain (Prod.mk row) (fun _ _ => .inRow)
      (isChain_zigzagColumns row cols)
  case right =>
    rw [List.isChain_map, List.isChain_range]
    intro row _ last hlast first hfirst
    rw [List.getLast?_map, getLast?_zigzagColumns, Option.mem_map] at hlast
    rw [List.head?_map, Option.mem_map] at hfirst
    obtain ⟨col, hcol, rfl⟩ := hlast
    obtain ⟨col', hcol', rfl⟩ := hfirst
    obtain rfl := Option.mem_unique hcol hcol'
    exact .inColumn (.inl rfl)

/-! ### Stored cells -/

/-- Every cell within the sides of the grid is stored. -/
def HeightGrid.Stored {α : Type} (g : HeightGrid α) : Prop :=
  ∀ row col, row < g.rows → col < g.cols → ∃ height, g.get? row col = some height

theorem HeightGrid.stored_of_size {α : Type} {g : HeightGrid α}
    (hsize : g.values.size = g.rows * g.cols) : g.Stored := by
  intro row col hrow hcol
  have hindex : cellIndex g.cols row col < g.values.size := hsize ▸ cellIndex_lt hrow hcol
  refine ⟨g.values[cellIndex g.cols row col], ?_⟩
  rw [get?, if_pos ⟨hrow, hcol⟩, Array.getElem?_eq_getElem hindex]

namespace ToolpathParameters
variable {α : Type} [Scalar α]

/-! ### Moves -/

def cellCut? (p : ToolpathParameters α) (g : HeightGrid α) (cell : Nat × Nat) : Option (Motion α) :=
  (g.get? cell.1 cell.2).map fun height => p.cutAt cell.1 cell.2 (-height)

theorem map_some_rowCuts (p : ToolpathParameters α) {g : HeightGrid α} (h : g.Stored) {row : Nat}
    (hrow : row < g.rows) :
    (p.rowCuts g row).map some =
      (zigzagColumns row g.cols).map fun col => p.cellCut? g (row, col) := by
  rw [rowCuts, List.map_filterMap_some_eq_filter_map_isSome]
  apply List.filter_eq_self.mpr
  intro cut hcut
  obtain ⟨col, hcol, rfl⟩ := List.mem_map.mp hcut
  obtain ⟨height, hheight⟩ := h row col hrow (mem_zigzagColumns.mp hcol)
  rw [hheight]
  rfl

theorem length_rowCuts (p : ToolpathParameters α) {g : HeightGrid α} (h : g.Stored) {row : Nat}
    (hrow : row < g.rows) : (p.rowCuts g row).length = g.cols := by
  have hlength := congrArg List.length (p.map_some_rowCuts h hrow)
  rwa [List.length_map, List.length_map, length_zigzagColumns] at hlength

theorem getElem?_rowCuts (p : ToolpathParameters α) {g : HeightGrid α} (h : g.Stored)
    {row place : Nat} (hrow : row < g.rows) (hplace : place < g.cols) :
    (p.rowCuts g row)[place]? = p.cellCut? g (row, zigzagColumn row g.cols place) := by
  have helem := congrArg (·[place]?) (p.map_some_rowCuts h hrow)
  simp only [List.getElem?_map, getElem?_zigzagColumns hplace, Option.map_some] at helem
  obtain ⟨cut, hcut, hcell⟩ := Option.map_eq_some_iff.mp helem
  rw [hcut, hcell]

/-- With a lift after the last row as well, the rows are all of one width. -/
theorem surfaceMoves_append_lift (p : ToolpathParameters α) {g : HeightGrid α} (h : g.rows ≠ 0) :
    p.surfaceMoves g ++ [p.lift] =
      (List.range g.rows).flatMap fun row => p.rowCuts g row ++ [p.lift] := by
  obtain ⟨last, hlast⟩ := Nat.exists_eq_succ_of_ne_zero h
  have hinner : (List.range last).flatMap (p.rowMoves g) =
      (List.range last).flatMap fun row => p.rowCuts g row ++ [p.lift] := by
    apply List.flatMap_congr
    intro row hrow
    rw [rowMoves, if_pos (by have := List.mem_range.mp hrow; omega)]
  rw [surfaceMoves, hlast, List.range_succ, List.flatMap_append, List.flatMap_append, hinner,
    List.flatMap_singleton, List.flatMap_singleton, rowMoves, if_neg (by omega), List.append_nil,
    List.append_assoc]

theorem length_rowWithLift (p : ToolpathParameters α) {g : HeightGrid α} (h : g.Stored) :
    ∀ row < g.rows, (p.rowCuts g row ++ [p.lift]).length = g.cols + 1 := by
  intro row hrow
  rw [List.length_append, p.length_rowCuts h hrow, List.length_singleton]

theorem length_surfaceMoves (p : ToolpathParameters α) {g : HeightGrid α} (h : g.Stored)
    (hrows : g.rows ≠ 0) : (p.surfaceMoves g).length = g.rows * (g.cols + 1) - 1 := by
  have hlength := congrArg List.length (p.surfaceMoves_append_lift hrows)
  rw [length_flatMap_range (p.length_rowWithLift h), List.length_append, List.length_singleton]
    at hlength
  omega

theorem getElem?_surfaceMoves (p : ToolpathParameters α) {g : HeightGrid α} (h : g.Stored)
    {row place : Nat} (hrow : row < g.rows) (hplace : place < g.cols + 1)
    (hlast : row * (g.cols + 1) + place < (p.surfaceMoves g).length) :
    (p.surfaceMoves g)[row * (g.cols + 1) + place]? = (p.rowCuts g row ++ [p.lift])[place]? := by
  rw [← getElem?_flatMap_range (p.length_rowWithLift h) hrow hplace,
    ← p.surfaceMoves_append_lift (by omega), List.getElem?_append_left hlast]

theorem map_some_filter_isCut_surfaceMoves (p : ToolpathParameters α) {g : HeightGrid α}
    (h : g.Stored) :
    ((p.surfaceMoves g).filter Motion.isCut).map some =
      (scanCells g.rows g.cols).map (p.cellCut? g) := by
  rw [surfaceMoves, scanCells, List.filter_flatMap, List.map_flatMap, List.map_flatMap]
  apply List.flatMap_congr
  intro row hrow
  have hcuts : (p.rowCuts g row).filter Motion.isCut = p.rowCuts g row := by
    apply List.filter_eq_self.mpr
    intro m hm
    obtain ⟨col, _, hm⟩ := List.mem_filterMap.mp hm
    obtain ⟨height, _, rfl⟩ := Option.map_eq_some_iff.mp hm
    rfl
  have hlift : (if row + 1 < g.rows then [p.lift] else []).filter Motion.isCut = [] := by
    split <;> rfl
  rw [rowMoves, List.filter_append, hcuts, hlift, List.append_nil,
    p.map_some_rowCuts h (List.mem_range.mp hrow), List.map_map]
  rfl

structure ScansSurface (p : ToolpathParameters α) (g : HeightGrid α) (moves : List (Motion α)) :
    Prop where
  length : moves.length = g.rows * (g.cols + 1) - 1
  cut : ∀ row place, row < g.rows → place < g.cols →
    ∃ height, g.get? row (zigzagColumn row g.cols place) = some height ∧
      moves[row * (g.cols + 1) + place]? =
        some (.cut (.xyz (Scalar.natural (zigzagColumn row g.cols place) * p.step)
          (Scalar.natural row * p.step) (-height)) (some p.cutFeed))
  lift : ∀ row, row + 1 < g.rows →
    moves[row * (g.cols + 1) + g.cols]? = some (.rapid (.zOnly p.safeZ) none)
  /-- The cuts are those of the cells, in the order in which the cells are visited. -/
  cuts : (moves.filter Motion.isCut).map some = (scanCells g.rows g.cols).map (p.cellCut? g)
  once : ∀ row col,
    (scanCells g.rows g.cols).count (row, col) = if row < g.rows ∧ col < g.cols then 1 else 0
  neighbours : (scanCells g.rows g.cols).IsChain Neighbours

theorem scansSurface_surfaceMoves (p : ToolpathParameters α) {g : HeightGrid α} (h : g.Stored)
    (hrows : g.rows ≠ 0) (hcols : g.cols ≠ 0) : ScansSurface p g (p.surfaceMoves g) := by
  have hlength := p.length_surfaceMoves h hrows
  have hwidth {row : Nat} (hrow : row < g.rows) :
      row * (g.cols + 1) + (g.cols + 1) ≤ g.rows * (g.cols + 1) := by
    rw [← Nat.succ_mul]
    exact Nat.mul_le_mul_right _ hrow
  refine ⟨hlength, ?cut, ?lift, p.map_some_filter_isCut_surfaceMoves h,
    count_scanCells g.rows g.cols, isChain_scanCells hcols⟩
  case cut =>
    intro row place hrow hplace
    obtain ⟨height, hheight⟩ := h row _ hrow (zigzagColumn_lt hplace)
    have hend := hwidth hrow
    refine ⟨height, hheight, ?_⟩
    rw [p.getElem?_surfaceMoves h hrow (by omega) (by omega),
      List.getElem?_append_left (by rwa [p.length_rowCuts h hrow]),
      p.getElem?_rowCuts h hrow hplace, cellCut?, hheight]
    rfl
  case lift =>
    intro row hrow
    have hend := hwidth hrow
    rw [Nat.succ_mul] at hend
    rw [p.getElem?_surfaceMoves h (by omega) (by omega) (by omega),
      List.getElem?_append_right (by rw [p.length_rowCuts h (by omega)]),
      p.length_rowCuts h (by omega), Nat.sub_self]
    rfl

end ToolpathParameters

namespace Generator
variable {α : Type} [Scalar α]

theorem cutCount_singlePass (g : Generator α) (time : String) {grid : HeightGrid α}
    (h : grid.values.size = grid.rows * grid.cols) :
    (g.singlePass time grid).cutCount = grid.rows * grid.cols := by
  have hopen : (opening g.params).countP Motion.isCut = 0 := rfl
  have hclose : (closing g.params).countP Motion.isCut = 0 := rfl
  have hcuts := congrArg List.length
    (g.params.map_some_filter_isCut_surfaceMoves (HeightGrid.stored_of_size h))
  rw [List.length_map, List.length_map, scanCells, length_flatMap_range fun row _ =>
      (List.length_map _).trans (length_zigzagColumns row grid.cols)] at hcuts
  rw [Plan.cutCount, motions_singlePass, List.countP_append, List.countP_append, hopen, hclose,
    List.countP_eq_length_filter, hcuts]
  omega

/-- A single pass over a grid is the scan of its surface between header and footer: the cut at each
place of each row, a lift after every row but the last, every cell once and each beside the one
before. -/
theorem singlePass_scans_surface (g : Generator α) (time : String) {rows cols : Nat}
    {values : Array α} {maxHeight : α} {grid : HeightGrid α}
    (h : HeightGrid.new rows cols values maxHeight = .ok grid) :
    (grid.rows = rows ∧ grid.cols = cols ∧
      ∀ row col, row < rows → col < cols → grid.get? row col = values[row * cols + col]?) ∧
    g.params.ScansSurface grid (g.params.surfaceMoves grid) ∧
    (g.singlePass time grid).steps =
      header g.params time "Relief carving toolpath" rows cols ++
        [.comment ("Max height: " ++ Scalar.fixed 3 maxHeight ++ " mm")] ++
        (g.params.surfaceMoves grid).map .motion ++ footer g.params ∧
    (g.singlePass time grid).passes = 1 := by
  obtain ⟨rfl, hrows, hcols, hsize, _⟩ := HeightGrid.new_eq_ok h
  refine ⟨⟨rfl, rfl, fun row col hrow hcol => if_pos ⟨hrow, hcol⟩⟩, ?_, rfl, rfl⟩
  exact g.params.scansSurface_surfaceMoves (HeightGrid.stored_of_size hsize) hrows hcols

def terrace : HeightGrid Float := ⟨2, 3, 2, #[0, 1, 2, 2, 1, 0.5]⟩

theorem new_terrace : HeightGrid.new 2 3 terrace.values 2 = .ok terrace := by
  decide +kernel

theorem engraver_scans_terrace :
    engraver.params.ScansSurface terrace (engraver.params.surfaceMoves terrace) ∧
      (engraver.singlePass "2026-01-01 00:00:00 UTC" terrace).passes = 1 := by
  obtain ⟨_, hscan, _, hpasses⟩ :=
    singlePass_scans_surface engraver "2026-01-01 00:00:00 UTC" new_terrace
  exact ⟨hscan, hpasses⟩

end Generator
end BasRelief
