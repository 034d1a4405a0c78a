import BasRelief.Field.ActiveMask

/-!
# Reading cells

A cell is read at a place that is computed in machine words. What is made has sides that are not
zero, and as many cells as the program counts. Where a product that no word holds stops the work,
there is one cell for each place within the sides, no place is beyond a word, and reading in words
is reading in whole numbers. Where such a product wraps around, this holds of exactly those sides
whose product fits: of all others some cell, and its whole row, cannot be read.
-/

namespace BasRelief

/-! ### Places -/

/-- The place of a cell, if the work reaches it. -/
def cellIndex? (overflow : Overflow) (cols row col : Nat) : Option Nat := do
  let start ← overflow.word? (row * cols)
  overflow.word? (start + col)

/-- Sides that are not zero, and a cell for each place within them, all of them countable. -/
structure WellShaped (rows cols count : Nat) : Prop where
  rows_pos : 0 < rows
  cols_pos : 0 < cols
  count_eq : count = rows * cols
  countable : rows * cols < wordSize

/-- Sides that words hold and whose product they do not, with what a word keeps of it. -/
structure CutShort (rows cols count : Nat) : Prop where
  rows_lt : rows < wordSize
  cols_lt : cols < wordSize
  cols_pos : 0 < cols
  uncountable : wordSize ≤ rows * cols
  count_eq : count = rows * cols % wordSize

namespace WellShaped
variable {rows cols row col : Nat}

theorem cellIndex?_eq {count : Nat} (h : WellShaped rows cols count) (overflow : Overflow)
    (hrow : row < rows) (hcol : col < cols) :
    cellIndex? overflow cols row col = some (cellIndex cols row col) := by
  have hindex := Nat.lt_trans (cellIndex_lt hrow hcol) h.countable
  have hstart : row * cols < wordSize := Nat.lt_of_le_of_lt (Nat.le_add_right _ _) hindex
  rw [cellIndex?, overflow.word?_of_lt hstart]
  exact overflow.word?_of_lt hindex

theorem exists_cell {β : Type} {cells : Array β} (h : WellShaped rows cols cells.size)
    (hrow : row < rows) (hcol : col < cols) :
    ∃ cell, cells[cellIndex cols row col]? = some cell := by
  have hindex : cellIndex cols row col < cells.size := h.count_eq ▸ cellIndex_lt hrow hcol
  exact ⟨_, Array.getElem?_eq_getElem hindex⟩

theorem succ_mul_le_iff {count : Nat} (h : WellShaped rows cols count) :
    (row + 1) * cols ≤ count ↔ row < rows := by
  rw [h.count_eq, Nat.mul_le_mul_right_iff h.cols_pos, Nat.succ_le_iff]

end WellShaped

/-! ### The place after the last cell -/

namespace CutShort
variable {rows cols count : Nat} (h : CutShort rows cols count)
include h

theorem count_lt : count < wordSize := h.count_eq ▸ Nat.mod_lt _ (by decide)

theorem row_lt : count / cols < rows :=
  Nat.div_lt_of_lt_mul (Nat.mul_comm cols rows ▸ Nat.lt_of_lt_of_le h.count_lt h.uncountable)

theorem col_lt : count % cols < cols := Nat.mod_lt _ h.cols_pos

theorem start_lt : count / cols * cols < wordSize :=
  Nat.lt_of_le_of_lt (Nat.div_mul_le_self count cols) h.count_lt

theorem cellIndex?_eq (overflow : Overflow) :
    cellIndex? overflow cols (count / cols) (count % cols) = some count := by
  have hplace : count / cols * cols + count % cols = count := Nat.div_add_mod' count cols
  rw [cellIndex?, overflow.word?_of_lt h.start_lt]
  change overflow.word? (count / cols * cols + count % cols) = some count
  rw [hplace, overflow.word?_of_lt h.count_lt]

/-- The row of the missing cell ends behind the cells, or, if its end wraps around, before its own
start. -/
theorem stop_outside {overflow : Overflow} {stop : Nat}
    (hstop : overflow.word? ((count / cols + 1) * cols) = some stop) :
    ¬(count / cols * cols ≤ stop ∧ stop ≤ count) := by
  have hnext : count < (count / cols + 1) * cols := by
    rw [Nat.succ_mul]
    exact Nat.lt_div_mul_add h.cols_pos
  by_cases hword : (count / cols + 1) * cols < wordSize
  · obtain rfl : (count / cols + 1) * cols = stop :=
      Option.some.inj ((overflow.word?_of_lt hword).symm.trans hstop)
    exact fun hrange => absurd hrange.2 (Nat.not_le_of_lt hnext)
  · have hcols := h.cols_lt
    have hstart := h.start_lt
    rw [Nat.succ_mul] at hword hstop
    cases overflow with
    | stops => exact absurd (word?_eq_some.mp hstop).1 hword
    | wraps =>
      obtain rfl := Option.some.inj hstop
      rw [Nat.mod_eq_sub_mod (Nat.le_of_not_lt hword), Nat.mod_eq_of_lt (by omega)]
      omega

end CutShort

/-! ### Heights -/

namespace HeightGrid
variable {α : Type} {g : HeightGrid α} {row col : Nat} {heights : List α}

/-- `HeightGrid::get` as it is computed in words: nothing where the work would end. -/
def read? (g : HeightGrid α) (overflow : Overflow) (row col : Nat) : Option (Option α) :=
  if row < g.rows ∧ col < g.cols then do
    let place ← cellIndex? overflow g.cols row col
    let height ← g.values[place]?
    return some height
  else some none

/-- `HeightGrid::row` as it is computed in words. -/
def slice? (g : HeightGrid α) (overflow : Overflow) (row : Nat) : Option (List α) := do
  let start ← overflow.word? (row * g.cols)
  let next ← overflow.word? (row + 1)
  let stop ← overflow.word? (next * g.cols)
  if start ≤ stop ∧ stop ≤ g.values.size then some (g.values.extract start stop).toList else none

/-- The cells within the sides are stored at their places, in their rows, and read in words. -/
structure Readable (g : HeightGrid α) (overflow : Overflow) : Prop where
  isSome_get_iff : ∀ row col, (g.get? row col).isSome = true ↔ row < g.rows ∧ col < g.cols
  get_eq_value : ∀ row col, row < g.rows → col < g.cols →
    g.get? row col = g.values[row * g.cols + col]?
  isSome_row_iff : ∀ row, (g.row? row).isSome = true ↔ row < g.rows
  getElem?_row : ∀ row heights, g.row? row = some heights →
    heights.length = g.cols ∧ ∀ col, heights[col]? = g.get? row col
  read_eq : ∀ row col, g.read? overflow row col = some (g.get? row col)
  slice_eq : ∀ row, row < g.rows → g.slice? overflow row = g.row? row
  slice_outside : overflow = .stops → ∀ row, g.rows ≤ row → g.slice? overflow row = none

/-- A cell within the sides at which the work ends, as it does at the whole row of the cell. -/
structure Unreadable (g : HeightGrid α) (overflow : Overflow) (row col : Nat) : Prop where
  row_lt : row < g.rows
  col_lt : col < g.cols
  read_eq : g.read? overflow row col = none
  slice_eq : g.slice? overflow row = none

theorem get?_eq_value (hrow : row < g.rows) (hcol : col < g.cols) :
    g.get? row col = g.values[cellIndex g.cols row col]? := if_pos ⟨hrow, hcol⟩

theorem get?_eq_none (h : ¬(row < g.rows ∧ col < g.cols)) : g.get? row col = none := if_neg h

theorem row?_eq_some_iff :
    g.row? row = some heights ↔ (row + 1) * g.cols ≤ g.values.size ∧
      (g.values.extract (row * g.cols) ((row + 1) * g.cols)).toList = heights := by
  simp [row?, cellIndex]

theorem slice?_stops_eq_some_iff :
    g.slice? .stops row = some heights ↔ row * g.cols < wordSize ∧ row + 1 < wordSize ∧
      (row + 1) * g.cols < wordSize ∧ row * g.cols ≤ (row + 1) * g.cols ∧
      (row + 1) * g.cols ≤ g.values.size ∧
      (g.values.extract (row * g.cols) ((row + 1) * g.cols)).toList = heights := by
  simp [slice?, Overflow.word?, Option.bind_eq_some_iff, word?_eq_some, and_assoc]

theorem length_of_row? (h : g.row? row = some heights) : heights.length = g.cols := by
  obtain ⟨hsize, rfl⟩ := row?_eq_some_iff.mp h
  rw [Array.length_toList, Array.size_extract, Nat.min_eq_left hsize, Nat.succ_mul]
  omega

theorem getElem?_of_row? (h : g.row? row = some heights) (hcol : col < g.cols) :
    heights[col]? = g.values[cellIndex g.cols row col]? := by
  obtain ⟨hsize, rfl⟩ := row?_eq_some_iff.mp h
  have hlength : col < min ((row + 1) * g.cols) g.values.size - row * g.cols := by
    rw [Nat.min_eq_left hsize, Nat.succ_mul]
    omega
  rw [Array.getElem?_toList, Array.getElem?_extract, if_pos hlength, cellIndex]

section
variable (h : WellShaped g.rows g.cols g.values.size)
include h

theorem isSome_get?_iff (row col : Nat) :
    (g.get? row col).isSome = true ↔ row < g.rows ∧ col < g.cols := by
  by_cases hin : row < g.rows ∧ col < g.cols
  · obtain ⟨height, hheight⟩ := h.exists_cell hin.1 hin.2
    simp [get?_eq_value hin.1 hin.2, hheight, hin]
  · simp [get?_eq_none hin, hin]

theorem isSome_row?_iff (row : Nat) : (g.row? row).isSome = true ↔ row < g.rows := by
  rw [← h.succ_mul_le_iff, Option.isSome_iff_exists]
  simp [row?_eq_some_iff]

theorem read?_eq (overflow : Overflow) (row col : Nat) :
    g.read? overflow row col = some (g.get? row col) := by
  by_cases hin : row < g.rows ∧ col < g.cols
  · obtain ⟨height, hheight⟩ := h.exists_cell hin.1 hin.2
    simp [read?, hin, h.cellIndex?_eq overflow hin.1 hin.2, get?_eq_value hin.1 hin.2, hheight]
  · rw [read?, if_neg hin, get?_eq_none hin]

/-- A row within the sides ends within the cells, so no build computes its ends in another way. -/
theorem slice?_eq (overflow : Overflow) {row : Nat} (hrow : row < g.rows) :
    g.slice? overflow row = g.row? row := by
  have hstop : (row + 1) * g.cols ≤ g.values.size := h.succ_mul_le_iff.mpr hrow
  have hword : g.values.size < wordSize := h.count_eq ▸ h.countable
  have hnext : row + 1 ≤ (row + 1) * g.cols := Nat.le_mul_of_pos_right _ h.cols_pos
  have hstart : row * g.cols ≤ (row + 1) * g.cols := Nat.mul_le_mul_right _ (Nat.le_succ row)
  have hends : g.slice? overflow row =
      some (g.values.extract (row * g.cols) ((row + 1) * g.cols)).toList := by
    rw [slice?, overflow.word?_of_lt (show row * g.cols < wordSize by omega),
      overflow.word?_of_lt (show row + 1 < wordSize by omega)]
    simp [overflow.word?_of_lt (show (row + 1) * g.cols < wordSize by omega), hstart, hstop]
  rw [hends, row?_eq_some_iff.mpr ⟨hstop, rfl⟩]

theorem slice?_outside {row : Nat} (hrow : g.rows ≤ row) : g.slice? .stops row = none := by
  refine Option.eq_none_iff_forall_ne_some.mpr fun heights hheights => ?_
  have hstop := (slice?_stops_eq_some_iff.mp hheights).2.2.2.2.1
  exact absurd (h.succ_mul_le_iff.mp hstop) (Nat.not_lt_of_le hrow)

theorem readable (overflow : Overflow) : g.Readable overflow where
  isSome_get_iff := isSome_get?_iff h
  get_eq_value _ _ := get?_eq_value
  isSome_row_iff := isSome_row?_iff h
  getElem?_row row heights hheights := by
    refine ⟨length_of_row? hheights, fun col => ?_⟩
    have hrow : row < g.rows := (isSome_row?_iff h row).mp (by rw [hheights, Option.isSome_some])
    by_cases hcol : col < g.cols
    · rw [getElem?_of_row? hheights hcol, get?_eq_value hrow hcol]
    · have hlength := length_of_row? hheights
      rw [get?_eq_none fun hin => hcol hin.2]
      exact List.getElem?_eq_none (by omega)
  read_eq := read?_eq h overflow
  slice_eq _ := slice?_eq h overflow
  slice_outside := by
    rintro rfl row
    exact slice?_outside h

end

/-- The place after the last cell lies within the sides, and so does its row. -/
theorem unreadable (h : CutShort g.rows g.cols g.values.size) (overflow : Overflow) :
    g.Unreadable overflow (g.values.size / g.cols) (g.values.size % g.cols) where
  row_lt := h.row_lt
  col_lt := h.col_lt
  read_eq := by
    simp [read?, h.row_lt, h.col_lt, h.cellIndex?_eq overflow]
  slice_eq := by
    refine Option.eq_none_iff_forall_ne_some.mpr fun heights hheights => ?_
    obtain ⟨start, hstart, hends⟩ := Option.bind_eq_some_iff.mp hheights
    obtain ⟨next, hnext, hend⟩ := Option.bind_eq_some_iff.mp hends
    obtain ⟨stop, hstop, hcut⟩ := Option.bind_eq_some_iff.mp hend
    have hrow : g.values.size / g.cols + 1 < wordSize :=
      Nat.lt_of_le_of_lt (Nat.succ_le_of_lt h.row_lt) h.rows_lt
    obtain rfl := Option.some.inj ((overflow.word?_of_lt h.start_lt).symm.trans hstart)
    obtain rfl := Option.some.inj ((overflow.word?_of_lt hrow).symm.trans hnext)
    rw [if_neg (h.stop_outside hstop)] at hcut
    cases hcut

end HeightGrid

/-! ### Active cells -/

namespace ActiveMask
variable {m : ActiveMask} {row col : Nat}

/-- `ActiveMask::is_active` as it is computed in words: nothing where the work would end. -/
def read? (m : ActiveMask) (overflow : Overflow) (row col : Nat) : Option Bool :=
  if row < m.rows ∧ col < m.cols then do
    let place ← cellIndex? overflow m.cols row col
    m.cells[place]?
  else some false

/-- A cell is active if its place says so, never outside of the sides, and can be read in words. -/
structure Readable (m : ActiveMask) (overflow : Overflow) : Prop where
  active_iff : ∀ row col, row < m.rows → col < m.cols →
    (m.active row col = true ↔ m.cells[row * m.cols + col]? = some true)
  active_outside : ∀ row col, ¬(row < m.rows ∧ col < m.cols) → m.active row col = false
  read_eq : ∀ row col, m.read? overflow row col = some (m.active row col)

theorem active_eq_getD (hrow : row < m.rows) (hcol : col < m.cols) :
    m.active row col = m.cells[cellIndex m.cols row col]?.getD false := by
  simp [active, hrow, hcol]

theorem active_eq_false (h : ¬(row < m.rows ∧ col < m.cols)) : m.active row col = false := by
  refine eq_false_of_ne_true fun hactive => h ?_
  simp only [active, Bool.and_eq_true, decide_eq_true_iff] at hactive
  exact hactive.1

theorem readable (h : WellShaped m.rows m.cols m.cells.size) (overflow : Overflow) :
    m.Readable overflow where
  active_iff row col hrow hcol := by
    obtain ⟨cell, hcell⟩ := h.exists_cell hrow hcol
    rw [active_eq_getD hrow hcol, ← cellIndex, hcell]
    simp
  active_outside _ _ := active_eq_false
  read_eq row col := by
    by_cases hin : row < m.rows ∧ col < m.cols
    · obtain ⟨cell, hcell⟩ := h.exists_cell hin.1 hin.2
      simp [read?, hin, h.cellIndex?_eq overflow hin.1 hin.2, active_eq_getD hin.1 hin.2, hcell]
    · rw [read?, if_neg hin, active_eq_false hin]

theorem read?_eq_none (h : CutShort m.rows m.cols m.cells.size) (overflow : Overflow) :
    m.read? overflow (m.cells.size / m.cols) (m.cells.size % m.cols) = none := by
  simp [read?, h.row_lt, h.col_lt, h.cellIndex?_eq overflow]

end ActiveMask

/-! ### What is made -/

/-- The sides of what is made are not zero and the cells are as many as the program counts. -/
theorem wellShaped_or_cutShort {overflow : Overflow} {rows cols count : Nat}
    (hrows : rows < wordSize) (hcols : cols < wordSize) (hzero : rows ≠ 0 ∧ cols ≠ 0)
    (h : cellCount? rows cols overflow = some count) :
    WellShaped rows cols count ∨ overflow = .wraps ∧ CutShort rows cols count := by
  have hcolsPos := Nat.pos_of_ne_zero hzero.2
  by_cases hword : rows * cols < wordSize
  · have hcount : count = rows * cols :=
      Option.some.inj (h.symm.trans (overflow.word?_of_lt hword))
    exact .inl ⟨Nat.pos_of_ne_zero hzero.1, hcolsPos, hcount, hword⟩
  · have hlarge : wordSize ≤ rows * cols := Nat.le_of_not_lt hword
    cases overflow with
    | stops => exact absurd (cellCount?_eq_some.mp h).1 hword
    | wraps => exact .inr ⟨rfl, hrows, hcols, hcolsPos, hlarge, (Option.some.inj h).symm⟩

/-- Whatever the sides are, what is made of them and is not cut short has as many cells as their
product, and each of them can be read; only a build whose products wrap around makes anything else,
and of that some cell within the sides and its row cannot be read. -/
theorem made_cells_readable {α : Type} [Scalar α] (overflow : Overflow) {rows cols : Nat}
    (hrows : rows < wordSize) (hcols : cols < wordSize) (values : Array α) (maxHeight : α)
    (cells : Array Bool) :
    (∀ g, HeightGrid.new rows cols values maxHeight overflow = .ok g →
      g = ⟨rows, cols, maxHeight, values⟩ ∧
        (WellShaped rows cols values.size ∧ g.Readable overflow ∨
          (overflow = .wraps ∧ CutShort rows cols values.size) ∧
            ∃ row col, g.Unreadable overflow row col)) ∧
      ∀ m, ActiveMask.new rows cols cells overflow =
          (.ok m : Except (ParameterError α) ActiveMask) →
        m = ⟨rows, cols, cells⟩ ∧
          (WellShaped rows cols cells.size ∧ m.Readable overflow ∨
            (overflow = .wraps ∧ CutShort rows cols cells.size) ∧
              ∃ row col, row < m.rows ∧ col < m.cols ∧ m.read? overflow row col = none) := by
  constructor
  · intro g hg
    obtain ⟨rfl, hzero, hcells, _⟩ := HeightGrid.new_eq_ok_iff_counted.mp hg
    refine ⟨rfl, ?_⟩
    rcases wellShaped_or_cutShort hrows hcols hzero hcells with hshape | ⟨hwraps, hcut⟩
    · exact .inl ⟨hshape, HeightGrid.readable hshape overflow⟩
    · exact .inr ⟨⟨hwraps, hcut⟩, _, _, HeightGrid.unreadable hcut overflow⟩
  · intro m hm
    obtain ⟨rfl, hzero, hcells⟩ := ActiveMask.new_eq_ok_iff_counted.mp hm
    refine ⟨rfl, ?_⟩
    rcases wellShaped_or_cutShort hrows hcols hzero hcells with hshape | ⟨hwraps, hcut⟩
    · exact .inl ⟨hshape, ActiveMask.readable hshape overflow⟩
    · exact .inr ⟨⟨hwraps, hcut⟩, _, _, hcut.row_lt, hcut.col_lt,
        ActiveMask.read?_eq_none hcut overflow⟩

/-- A checked build reads the corners of a small grid and a small mask. -/
theorem corner_cells_read :
    ∃ g m, (2 < wordSize ∧ 3 < wordSize) ∧
      HeightGrid.new 2 3 #[0.0, 1.0, 2.0, 3.0, 4.0, 5.0] (6.0 : Float) .stops = .ok g ∧
      ActiveMask.new 2 3 #[true, false, true, false, false, true] .stops =
        (.ok m : Except (ParameterError Float) ActiveMask) ∧
      g.read? .stops 1 2 = some (some 5.0) ∧ g.slice? .stops 1 = some [3.0, 4.0, 5.0] ∧
      m.read? .stops 1 2 = some true ∧ m.read? .stops 2 0 = some false := by
  have hgrid : HeightGrid.new 2 3 #[0.0, 1.0, 2.0, 3.0, 4.0, 5.0] (6.0 : Float) =
      .ok ⟨2, 3, 6.0, #[0.0, 1.0, 2.0, 3.0, 4.0, 5.0]⟩ :=
    HeightGrid.new_eq_ok_iff.mpr ⟨rfl, by decide, rfl, by decide +kernel⟩
  have hmask : ActiveMask.new 2 3 #[true, false, true, false, false, true] =
      (.ok ⟨2, 3, #[true, false, true, false, false, true]⟩ :
        Except (ParameterError Float) ActiveMask) :=
    ActiveMask.new_eq_ok_iff.mpr ⟨rfl, by decide, rfl⟩
  have hsides : 2 < wordSize ∧ 3 < wordSize := by decide
  obtain ⟨hgrids, hmasks⟩ := made_cells_readable .stops hsides.1 hsides.2
    #[0.0, 1.0, 2.0, 3.0, 4.0, 5.0] (6.0 : Float) #[true, false, true, false, false, true]
  obtain ⟨_, ⟨_, hread⟩ | ⟨⟨hwraps, _⟩, _⟩⟩ := hgrids _ hgrid
  case inr => cases hwraps
  obtain ⟨_, ⟨_, htest⟩ | ⟨⟨hwraps, _⟩, _⟩⟩ := hmasks _ hmask
  case inr => cases hwraps
  refine ⟨_, _, hsides, hgrid, hmask, ?_, ?_, ?_, ?_⟩
  · rw [hread.read_eq]
    rfl
  · rw [hread.slice_eq 1 (by decide)]
    rfl
  · rw [htest.read_eq]
    rfl
  · rw [htest.read_eq]
    rfl

/-- A grid and a mask of 2^64 places without a cell: in a build whose products wrap around they are
made, and neither their first cell nor the first row can be read. -/
theorem wrapped_shape_unreadable :
    ∃ g m, HeightGrid.new 4294967296 4294967296 #[] (1.0 : Float) .wraps = .ok g ∧
      ActiveMask.new 4294967296 4294967296 #[] .wraps =
        (.ok m : Except (ParameterError Float) ActiveMask) ∧
      g.values.size ≠ 4294967296 * 4294967296 ∧ m.cells.size ≠ 4294967296 * 4294967296 ∧
      (0 < g.rows ∧ 0 < g.cols ∧ g.read? .wraps 0 0 = none ∧ g.slice? .wraps 0 = none) ∧
      (0 < m.rows ∧ 0 < m.cols ∧ m.read? .wraps 0 0 = none) :=
  ⟨⟨4294967296, 4294967296, 1.0, #[]⟩, ⟨4294967296, 4294967296, #[]⟩,
    HeightGrid.new_eq_ok_iff_counted.mpr ⟨rfl, by decide, rfl, by simp⟩,
    ActiveMask.new_eq_ok_iff_counted.mpr ⟨rfl, by decide, rfl⟩,
    by decide, by decide, by decide, by decide⟩

end BasRelief
