import BasRelief.Proofs.Toolpath.Runs
import BasRelief.Proofs.Toolpath.Sections

/-!
# Coverage

A pass cuts every active cell once and nothing else, and a plan of several passes makes one pass
for each depth, in the order of the depths. The cuts of a plan are listed with the pass and the
cell they are made for, since two cells can share their coordinates where these are too large to
be told apart.
-/

namespace BasRelief

def Stroke.cell? : Stroke → Option (Nat × Nat)
  | .carve row col => some (row, col)
  | _ => none

namespace ActiveMask

theorem size_of_new {α : Type} {rows cols : Nat} {cells : Array Bool} {m : ActiveMask}
    (h : new rows cols cells = (.ok m : Except (ParameterError α) ActiveMask)) :
    m = ⟨rows, cols, cells⟩ ∧ cells.size = rows * cols := by
  obtain ⟨hm, _, hsize⟩ := new_eq_ok_iff.1 h
  exact ⟨hm, hsize⟩

/-! ### The cells of one pass -/

def cutOrder (m : ActiveMask) : List (Nat × Nat) := m.strokes.filterMap Stroke.cell?

theorem filterMap_cell_scan (m : ActiveMask) (row : Nat) (cutting : Bool) (cols : List Nat) :
    (m.scan row cutting cols).filterMap Stroke.cell? =
      (cols.filter (m.active row)).map (Prod.mk row) := by
  induction cols generalizing cutting with
  | nil => cases cutting <;> rfl
  | cons col cols ih =>
    cases cutting <;> cases ha : m.active row col <;>
      simp [scan, ha, List.filterMap_cons, Stroke.cell?, ih]

theorem cutOrder_eq (m : ActiveMask) :
    m.cutOrder = (List.range m.rows).flatMap fun row =>
      ((zigzagColumns row m.cols).filter (m.active row)).map (Prod.mk row) := by
  simp only [cutOrder, strokes, List.filterMap_flatMap, filterMap_cell_scan]

theorem mem_cutOrder {m : ActiveMask} {row col : Nat} :
    (row, col) ∈ m.cutOrder ↔ m.active row col = true := by
  rw [cutOrder_eq, List.mem_flatMap]
  constructor
  · rintro ⟨r, _, h⟩
    obtain ⟨c, hc, heq⟩ := List.mem_map.1 h
    obtain ⟨rfl, rfl⟩ := Prod.mk.inj heq
    exact (List.mem_filter.1 hc).2
  · intro h
    obtain ⟨hr, hc⟩ := lt_cols_of_active h
    refine ⟨row, List.mem_range.2 hr, List.mem_map.2 ⟨col, ?_, rfl⟩⟩
    exact List.mem_filter.2 ⟨mem_zigzagColumns.2 hc, h⟩

theorem nodup_zigzagColumns (row cols : Nat) : (zigzagColumns row cols).Nodup := by
  unfold zigzagColumns
  split
  · exact List.nodup_range
  · exact List.nodup_reverse.2 List.nodup_range

theorem nodup_cutOrder (m : ActiveMask) : m.cutOrder.Nodup := by
  rw [cutOrder_eq, List.nodup_flatMap]
  constructor
  · intro row _
    apply ((nodup_zigzagColumns row m.cols).filter _).map
    intro a b h
    exact (Prod.mk.inj h).2
  · refine List.nodup_range.imp fun {r s} hne cell hr hs => ?_
    obtain ⟨_, _, rfl⟩ := List.mem_map.1 hr
    obtain ⟨_, _, heq⟩ := List.mem_map.1 hs
    exact hne (Prod.mk.inj heq).1.symm

theorem filter_cutOrder (m : ActiveMask) (row col : Nat) :
    m.cutOrder.filter (fun cell => cell.1 = row ∧ cell.2 = col) =
      if m.active row col then [(row, col)] else [] := by
  have hcell : (fun cell : Nat × Nat => decide (cell.1 = row ∧ cell.2 = col)) =
      (· == (row, col)) := by
    funext cell
    rw [Bool.eq_iff_iff, decide_eq_true_eq, beq_iff_eq, Prod.ext_iff]
  rw [hcell, List.filter_beq]
  by_cases ha : m.active row col = true
  · rw [List.count_eq_one_of_mem m.nodup_cutOrder (mem_cutOrder.2 ha), if_pos ha]
    rfl
  · rw [List.count_eq_zero_of_not_mem (fun h => ha (mem_cutOrder.1 h)), if_neg ha]
    rfl

/-! ### The number of active cells -/

theorem countP_eq_countP_range (cells : List Bool) :
    cells.countP id = (List.range cells.length).countP fun i => cells[i]?.getD false := by
  have hmap : cells = (List.range cells.length).map fun i => cells[i]?.getD false := by
    apply List.ext_getElem
    · simp
    · intro i hi _
      simp [hi]
  conv => lhs; rw [hmap]
  rw [List.countP_map]
  rfl

theorem countP_range_mul (p : Nat → Bool) (rows cols : Nat) :
    (List.range (rows * cols)).countP p =
      ((List.range rows).map fun row =>
        (List.range cols).countP fun col => p (row * cols + col)).sum := by
  induction rows with
  | zero => simp
  | succ rows ih =>
    rw [Nat.succ_mul, List.range_add, List.countP_append, ih, List.countP_map, List.range_succ,
      List.map_append, List.sum_append]
    simp [Function.comp_def]

theorem length_cutOrder (m : ActiveMask) (h : m.cells.size = m.rows * m.cols) :
    m.cutOrder.length = m.activeCount := by
  have hlen : m.cells.toList.length = m.rows * m.cols := by simpa using h
  rw [activeCount, countP_eq_countP_range, hlen, countP_range_mul, cutOrder_eq,
    List.length_flatMap]
  congr 1
  apply List.map_congr_left
  intro row hrow
  have hcols : (zigzagColumns row m.cols).countP (m.active row) =
      (List.range m.cols).countP (m.active row) := by
    unfold zigzagColumns
    split
    · rfl
    · rw [List.countP_reverse]
  rw [List.length_map, ← List.countP_eq_length_filter, hcols]
  apply List.countP_congr
  intro col hcol
  simp only [active, List.mem_range.1 hrow, List.mem_range.1 hcol, decide_true, Bool.true_and,
    cellIndex, Array.getElem?_toList]

end ActiveMask
end BasRelief
