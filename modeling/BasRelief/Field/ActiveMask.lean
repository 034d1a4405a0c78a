import BasRelief.Field.HeightGrid

/-!
# Active masks

A rectangle of cells that are cut or left alone, row by row from the top.
-/

namespace BasRelief

/-- The cells to cut, row by row (`ActiveMask`). -/
structure ActiveMask where
  rows : Nat
  cols : Nat
  cells : Array Bool
  deriving DecidableEq, Repr

namespace ActiveMask
variable {α : Type}

/-- `ActiveMask::new`: only the shape is checked. -/
def new (rows cols : Nat) (cells : Array Bool) (overflow : Overflow := .stops) :
    Except (ParameterError α) ActiveMask :=
  if rows = 0 ∨ cols = 0 then .error (.shape (.maskCount cells.size rows cols))
  else match cellCount? rows cols overflow with
    | none => .error (.shape (.uncountable rows cols))
    | some count =>
      if cells.size ≠ count then .error (.shape (.maskCount cells.size rows cols))
      else .ok ⟨rows, cols, cells⟩

/-- `ActiveMask::from_rows`: a mask drawn as text, where `#` is active and anything else is not. The
first row gives the width, and only the number of all characters is compared with it. -/
def ofRows (rows : List String) (overflow : Overflow := .stops) :
    Except (ParameterError α) ActiveMask :=
  let cols := match rows with
    | [] => 0
    | row :: _ => row.toList.length
  new rows.length cols (rows.flatMap fun row => row.toList.map (· == '#')).toArray overflow

/-- Whether a cell is to be cut, never outside of the sides (`is_active`). -/
def active (m : ActiveMask) (row col : Nat) : Bool :=
  row < m.rows && col < m.cols && m.cells[cellIndex m.cols row col]?.getD false

/-- How many cells are to be cut (`active_count`). -/
def activeCount (m : ActiveMask) : Nat := m.cells.toList.countP id

/-! ### Laws -/

theorem new_eq_ok_iff_counted {rows cols : Nat} {cells : Array Bool} {overflow : Overflow}
    {m : ActiveMask} :
    new rows cols cells overflow = (.ok m : Except (ParameterError α) ActiveMask) ↔
      m = ⟨rows, cols, cells⟩ ∧ (rows ≠ 0 ∧ cols ≠ 0) ∧
        cellCount? rows cols overflow = some cells.size := by
  constructor
  · intro h
    unfold new at h
    split at h
    · cases h
    split at h
    · cases h
    split at h
    · cases h
    rename_i hzero _ _ hcells hcount
    refine ⟨(Except.ok.inj h).symm, not_or.1 hzero, ?_⟩
    rw [hcells, Decidable.not_not.1 hcount]
  · rintro ⟨rfl, hzero, hcells⟩
    rw [new, if_neg (not_or.2 hzero), hcells]
    exact if_neg (not_not_intro rfl)

theorem new_eq_ok_iff {rows cols : Nat} {cells : Array Bool} {m : ActiveMask} :
    new rows cols cells = (.ok m : Except (ParameterError α) ActiveMask) ↔
      m = ⟨rows, cols, cells⟩ ∧ (rows ≠ 0 ∧ cols ≠ 0 ∧ rows * cols < wordSize) ∧
        cells.size = rows * cols := by
  rw [new_eq_ok_iff_counted, cellCount?_eq_some]
  constructor
  · rintro ⟨hm, ⟨hrows, hcols⟩, hword, hsize⟩
    exact ⟨hm, ⟨hrows, hcols, hword⟩, hsize.symm⟩
  · rintro ⟨hm, ⟨hrows, hcols, hword⟩, hsize⟩
    exact ⟨hm, ⟨hrows, hcols⟩, hword, hsize.symm⟩

end ActiveMask
end BasRelief
