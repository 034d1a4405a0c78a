import BasRelief.Number.Word
import BasRelief.Parameter

/-!
# Height grids

A rectangle of heights, row by row from the top. Its cells are counted in a machine word.
-/

namespace BasRelief

def cellCount? (rows cols : Nat) (overflow : Overflow := .stops) : Option Nat :=
  overflow.word? (rows * cols)

def cellIndex (cols row col : Nat) : Nat := row * cols + col

theorem cellCount?_eq_some {rows cols count : Nat} :
    cellCount? rows cols = some count ↔ rows * cols < wordSize ∧ rows * cols = count :=
  word?_eq_some

theorem cellCount?_eq_none {rows cols : Nat} :
    cellCount? rows cols = none ↔ wordSize ≤ rows * cols := by
  unfold cellCount? Overflow.word? word?
  split <;> simp_all

theorem cellIndex_lt {rows cols row col : Nat} (hr : row < rows) (hc : col < cols) :
    cellIndex cols row col < rows * cols := by
  have := Nat.mul_le_mul_right cols (Nat.succ_le_of_lt hr)
  rw [Nat.succ_mul] at this
  unfold cellIndex
  omega

/-- Heights between zero and a common bound, row by row (`HeightGrid`). -/
structure HeightGrid (α : Type) where
  rows : Nat
  cols : Nat
  maxHeight : α
  values : Array α
  deriving DecidableEq, Repr

namespace HeightGrid
variable {α : Type} [Scalar α]

def refuses (maxHeight v : α) : Bool :=
  !Scalar.isFinite v || Scalar.less v Scalar.zero || Scalar.less maxHeight v

/-- `HeightGrid::new`: the shape is compared with the counted cells, then each height is checked. -/
def new (rows cols : Nat) (values : Array α) (maxHeight : α) (overflow : Overflow := .stops) :
    Except (ParameterError α) (HeightGrid α) :=
  if rows = 0 ∨ cols = 0 then .error (.shape (.emptyGrid rows cols))
  else match cellCount? rows cols overflow with
    | none => .error (.shape (.uncountable rows cols))
    | some count =>
      if values.size ≠ count then .error (.shape (.gridCount values.size rows cols))
      else match values.toList.find? (refuses maxHeight) with
        | some bad => .error (.outOfRange "height" bad (.value Scalar.zero) (.value maxHeight))
        | none => .ok ⟨rows, cols, maxHeight, values⟩

/-- `HeightGrid::filled`: equal heights, listed before the sides are looked at. -/
def filled (rows cols : Nat) (height maxHeight : α) (overflow : Overflow := .stops) :
    Except (ParameterError α) (HeightGrid α) :=
  match cellCount? rows cols overflow with
  | none => .error (.shape (.uncountable rows cols))
  | some count =>
    if longestList < count then .error (.shape (.uncountable rows cols))
    else new rows cols (Array.replicate count height) maxHeight overflow

/-- The height of a cell, if it is within the sides (`HeightGrid::get`). -/
def get? (g : HeightGrid α) (row col : Nat) : Option α :=
  if row < g.rows ∧ col < g.cols then g.values[cellIndex g.cols row col]? else none

/-- `HeightGrid::row`; a row that reaches past the stored cells cannot be read. -/
def row? (g : HeightGrid α) (row : Nat) : Option (List α) :=
  let start := cellIndex g.cols row 0
  let stop := cellIndex g.cols (row + 1) 0
  if stop ≤ g.values.size then some (g.values.extract start stop).toList else none

/-! ### Laws -/

theorem new_eq_ok_iff_counted {rows cols : Nat} {values : Array α} {maxHeight : α}
    {overflow : Overflow} {g : HeightGrid α} :
    new rows cols values maxHeight overflow = .ok g ↔
      g = ⟨rows, cols, maxHeight, values⟩ ∧ (rows ≠ 0 ∧ cols ≠ 0) ∧
        cellCount? rows cols overflow = some values.size ∧
        ∀ v ∈ values, refuses maxHeight v = false := by
  have hfind : values.toList.find? (refuses maxHeight) = none ↔
      ∀ v ∈ values, refuses maxHeight v = false := by
    simp only [List.find?_eq_none, Array.mem_toList_iff, Bool.not_eq_true]
  constructor
  · intro h
    unfold new at h
    split at h
    · cases h
    split at h
    · cases h
    split at h
    · cases h
    split at h
    · cases h
    rename_i hzero _ _ hcells hcount _ hvalues
    refine ⟨(Except.ok.inj h).symm, not_or.1 hzero, ?_, hfind.1 hvalues⟩
    rw [hcells, Decidable.not_not.1 hcount]
  · rintro ⟨rfl, hzero, hcells, hvalues⟩
    rw [new, if_neg (not_or.2 hzero), hcells]
    dsimp only
    rw [if_neg (not_not_intro rfl), hfind.2 hvalues]

theorem new_eq_ok_iff {rows cols : Nat} {values : Array α} {maxHeight : α} {g : HeightGrid α} :
    new rows cols values maxHeight = .ok g ↔
      g = ⟨rows, cols, maxHeight, values⟩ ∧ (rows ≠ 0 ∧ cols ≠ 0 ∧ rows * cols < wordSize) ∧
        values.size = rows * cols ∧ ∀ v ∈ values, refuses maxHeight v = false := by
  rw [new_eq_ok_iff_counted, cellCount?_eq_some]
  constructor
  · rintro ⟨hg, ⟨hrows, hcols⟩, ⟨hword, hsize⟩, hvalues⟩
    exact ⟨hg, ⟨hrows, hcols, hword⟩, hsize.symm, hvalues⟩
  · rintro ⟨hg, ⟨hrows, hcols, hword⟩, hsize, hvalues⟩
    exact ⟨hg, ⟨hrows, hcols⟩, ⟨hword, hsize.symm⟩, hvalues⟩

theorem new_eq_ok {rows cols : Nat} {values : Array α} {maxHeight : α} {g : HeightGrid α}
    (h : new rows cols values maxHeight = .ok g) :
    g = ⟨rows, cols, maxHeight, values⟩ ∧ rows ≠ 0 ∧ cols ≠ 0 ∧
      values.size = rows * cols ∧ ∀ v ∈ values, refuses maxHeight v = false := by
  obtain ⟨hg, ⟨hrows, hcols, _⟩, hsize, hvalues⟩ := new_eq_ok_iff.1 h
  exact ⟨hg, hrows, hcols, hsize, hvalues⟩

/-- In a checked build the cells are too many to be listed before they are too many to be counted. -/
theorem filled_eq_ite {rows cols : Nat} {height maxHeight : α} :
    filled rows cols height maxHeight =
      if longestList < rows * cols then .error (.shape (.uncountable rows cols))
      else new rows cols (Array.replicate (rows * cols) height) maxHeight := by
  have hlists : longestList < wordSize := by decide
  unfold filled
  cases hcells : cellCount? rows cols with
  | none => exact (if_pos (Nat.lt_of_lt_of_le hlists (cellCount?_eq_none.1 hcells))).symm
  | some count =>
    obtain ⟨_, rfl⟩ := cellCount?_eq_some.1 hcells
    rfl

end HeightGrid
end BasRelief
