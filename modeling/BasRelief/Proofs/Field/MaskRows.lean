import BasRelief.Field.ActiveMask

/-!
# Masks drawn as text

The characters of all rows, one after another, become the cells of a mask, and the width of the
first row cuts them into the rows of the mask. Only their number is checked. So rows of one length
stay where they are drawn; rows of other lengths pass where the lengths happen to add up, and then
their characters move from row to row.
-/

namespace BasRelief

/-! ### Rows of text -/

namespace Rows

def width (rows : List String) : Nat := (rows.head?.map fun row => row.toList.length).getD 0

def characters (rows : List String) : List Char := rows.flatMap String.toList

def char? (rows : List String) (r c : Nat) : Option Char := rows[r]?.bind (·.toList[c]?)

/-- The number of characters before a row. -/
def start (rows : List String) (r : Nat) : Nat := (characters (rows.take r)).length

def IsRectangle (rows : List String) : Prop := ∀ row ∈ rows, row.toList.length = width rows

instance (rows : List String) : Decidable (IsRectangle rows) :=
  inferInstanceAs (Decidable (∀ row ∈ rows, _))

variable {rows : List String} {r c : Nat} {ch : Char}

theorem characters_cons (row : String) (rows : List String) :
    characters (row :: rows) = row.toList ++ characters rows :=
  List.flatMap_cons

theorem start_zero (rows : List String) : start rows 0 = 0 := rfl

theorem start_cons (row : String) (rows : List String) (r : Nat) :
    start (row :: rows) (r + 1) = row.toList.length + start rows r := by
  rw [start, List.take_succ_cons, characters_cons, List.length_append, start]

theorem char?_eq_some_iff :
    char? rows r c = some ch ↔ ∃ row, rows[r]? = some row ∧ row.toList[c]? = some ch :=
  Option.bind_eq_some_iff

/-- The characters of all rows are listed row by row. -/
theorem getElem?_characters {n : Nat} :
    (characters rows)[n]? = some ch ↔ ∃ r c, char? rows r c = some ch ∧ start rows r + c = n := by
  induction rows generalizing n with
  | nil =>
    constructor
    · intro h
      cases h
    · rintro ⟨r, c, h, _⟩
      cases h
  | cons row rows ih =>
    rw [characters_cons]
    constructor
    · intro h
      obtain hlt | hge := Nat.lt_or_ge n row.toList.length
      · rw [List.getElem?_append_left hlt] at h
        exact ⟨0, n, h, Nat.zero_add n⟩
      · rw [List.getElem?_append_right hge] at h
        obtain ⟨r, c, hchar, hplace⟩ := ih.mp h
        refine ⟨r + 1, c, hchar, ?_⟩
        rw [start_cons]
        omega
    · rintro ⟨r, c, hchar, rfl⟩
      cases r with
      | zero =>
        have hc : c < row.toList.length := (List.getElem?_eq_some_iff.mp hchar).1
        rw [start_zero, Nat.zero_add, List.getElem?_append_left hc]
        exact hchar
      | succ r =>
        rw [start_cons, Nat.add_assoc, List.getElem?_append_right (Nat.le_add_right _ _),
          Nat.add_sub_cancel_left]
        exact ih.mpr ⟨r, c, hchar, rfl⟩

/-! ### Rows of one length -/

theorem length_characters {w : Nat} (h : ∀ row ∈ rows, row.toList.length = w) :
    (characters rows).length = rows.length * w := by
  induction rows with
  | nil => exact (Nat.zero_mul w).symm
  | cons row rows ih =>
    obtain ⟨hrow, hrows⟩ := List.forall_mem_cons.mp h
    rw [characters_cons, List.length_append, hrow, ih hrows, List.length_cons, Nat.succ_mul,
      Nat.add_comm]

theorem start_of_length {w : Nat} (h : ∀ row ∈ rows, row.toList.length = w)
    (hr : r ≤ rows.length) : start rows r = r * w := by
  rw [start, length_characters fun row hrow => h row (List.mem_of_mem_take hrow),
    List.length_take, Nat.min_eq_left hr]

/-- The rows have one length exactly where each of them starts at a multiple of it. -/
theorem isRectangle_iff_start :
    IsRectangle rows ↔ ∀ r ≤ rows.length, start rows r = r * width rows := by
  constructor
  · intro h r hr
    exact start_of_length h hr
  · intro h row hrow
    obtain ⟨r, hr, rfl⟩ := List.getElem_of_mem hrow
    have hbefore := h r (Nat.le_of_lt hr)
    have hafter := h (r + 1) hr
    rw [start, ← List.take_append_getElem hr, characters, List.flatMap_append,
      List.flatMap_singleton, List.length_append, ← characters, ← start, hbefore,
      Nat.succ_mul] at hafter
    exact Nat.add_left_cancel hafter

/-- What the number of characters has to be for a mask to be made of them. -/
structure Fit (rows : List String) : Prop where
  width_ne : width rows ≠ 0
  countable : rows.length * width rows < wordSize
  length_characters : (characters rows).length = rows.length * width rows

theorem IsRectangle.fit_iff (h : IsRectangle rows) :
    Fit rows ↔ width rows ≠ 0 ∧ rows.length * width rows < wordSize :=
  ⟨fun hfit => ⟨hfit.width_ne, hfit.countable⟩,
    fun hsides => ⟨hsides.1, hsides.2, Rows.length_characters h⟩⟩

theorem width_of_empty (h : rows.length = 0) : width rows = 0 := by
  rw [List.eq_nil_of_length_eq_zero h, width, List.head?_nil, Option.map_none, Option.getD_none]

end Rows

theorem cellIndex_inj {cols row col row' col' : Nat} (hcol : col < cols) (hcol' : col' < cols)
    (h : cellIndex cols row col = cellIndex cols row' col') : row = row' ∧ col = col' := by
  have hrow : row = row' := by
    have hdiv := congrArg (· / cols) h
    simpa only [cellIndex, Nat.add_comm _ col, Nat.add_comm _ col',
      Nat.add_mul_div_right _ _ (Nat.zero_lt_of_lt hcol), Nat.div_eq_of_lt hcol,
      Nat.div_eq_of_lt hcol', Nat.zero_add] using hdiv
  subst hrow
  exact ⟨rfl, Nat.add_left_cancel h⟩

namespace ActiveMask
open Rows

/-! ### The mask of the rows -/

/-- The characters of the rows, cut anew at the width of the first row. -/
structure CutFrom (m : ActiveMask) (rows : List String) : Prop where
  rows_eq : m.rows = rows.length
  cols_eq : m.cols = width rows
  active_iff : ∀ r c, m.active r c = true ↔
    c < width rows ∧
      ∃ r' c', char? rows r' c' = some '#' ∧ start rows r' + c' = cellIndex (width rows) r c

/-- The characters of the rows, each in its place. -/
structure Draws (m : ActiveMask) (rows : List String) : Prop where
  rows_eq : m.rows = rows.length
  cols_eq : m.cols = width rows
  active_iff : ∀ r c, m.active r c = true ↔ char? rows r c = some '#'

def flags (rows : List String) : Array Bool := ((characters rows).map (· == '#')).toArray

theorem ofRows_eq {α : Type} (rows : List String) :
    (ofRows rows : Except (ParameterError α) ActiveMask) =
      new rows.length (width rows) (flags rows) := by
  rw [flags, characters, List.map_flatMap]
  cases rows <;> rfl

theorem size_flags (rows : List String) : (flags rows).size = (characters rows).length := by
  rw [flags, List.size_toArray, List.length_map]

theorem getElem?_flags (rows : List String) (n : Nat) :
    (flags rows)[n]?.getD false = true ↔ (characters rows)[n]? = some '#' := by
  rw [flags, List.getElem?_toArray, List.getElem?_map]
  cases (characters rows)[n]? with
  | none => exact iff_of_false Bool.false_ne_true nofun
  | some ch => rw [Option.map_some, Option.getD_some, beq_iff_eq, Option.some_inj]

theorem ofRows_eq_ok_iff {α : Type} {rows : List String} {m : ActiveMask} :
    ofRows rows = (.ok m : Except (ParameterError α) ActiveMask) ↔
      m = ⟨rows.length, width rows, flags rows⟩ ∧ Fit rows := by
  rw [ofRows_eq, new_eq_ok_iff, size_flags]
  constructor
  · rintro ⟨rfl, ⟨_, hwidth, hword⟩, hcount⟩
    exact ⟨rfl, hwidth, hword, hcount⟩
  · rintro ⟨rfl, hwidth, hword, hcount⟩
    exact ⟨rfl, ⟨mt width_of_empty hwidth, hwidth, hword⟩, hcount⟩

theorem cutFrom_flags {rows : List String}
    (h : (characters rows).length = rows.length * width rows) :
    CutFrom ⟨rows.length, width rows, flags rows⟩ rows where
  rows_eq := rfl
  cols_eq := rfl
  active_iff r c := by
    rw [active, Bool.and_eq_true, Bool.and_eq_true, decide_eq_true_iff, decide_eq_true_iff,
      getElem?_flags, getElem?_characters, and_assoc]
    refine and_iff_right_of_imp ?_
    rintro ⟨hc, hplace⟩
    -- a character beyond the last row would be one more than there are
    have hindex := (List.getElem?_eq_some_iff.mp (getElem?_characters.mpr hplace)).1
    rw [h] at hindex
    exact Nat.lt_of_mul_lt_mul_right (Nat.lt_of_le_of_lt (Nat.le_add_right _ _) hindex)

theorem CutFrom.draws {m : ActiveMask} {rows : List String} (h : m.CutFrom rows)
    (hrectangle : IsRectangle rows) : m.Draws rows where
  rows_eq := h.rows_eq
  cols_eq := h.cols_eq
  active_iff r c := by
    have hplaces : ∀ r c ch, char? rows r c = some ch →
        c < width rows ∧ start rows r + c = cellIndex (width rows) r c := by
      intro r c ch hchar
      obtain ⟨row, hrow, hcol⟩ := char?_eq_some_iff.mp hchar
      have hr := (List.getElem?_eq_some_iff.mp hrow).1
      have hc := (List.getElem?_eq_some_iff.mp hcol).1
      rw [hrectangle row (List.mem_of_getElem? hrow)] at hc
      exact ⟨hc, congrArg (· + c) (start_of_length hrectangle (Nat.le_of_lt hr))⟩
    rw [h.active_iff]
    constructor
    · rintro ⟨hc, r', c', hchar, hplace⟩
      obtain ⟨hc', hplace'⟩ := hplaces r' c' _ hchar
      obtain ⟨rfl, rfl⟩ := cellIndex_inj hc' hc (hplace'.symm.trans hplace)
      exact hchar
    · intro hchar
      obtain ⟨hc, hplace⟩ := hplaces r c _ hchar
      exact ⟨hc, r, c, hchar, hplace⟩

theorem eq_of_ofRows_error {α : Type} {rows : List String} {e : ParameterError α}
    (h : ofRows rows = .error e) :
    (e = .shape (.maskCount (characters rows).length rows.length (width rows)) ∧
        (width rows = 0 ∨ (characters rows).length ≠ rows.length * width rows)) ∨
      (e = .shape (.uncountable rows.length (width rows)) ∧
        wordSize ≤ rows.length * width rows) := by
  rw [ofRows_eq, new, size_flags] at h
  split at h
  next hzero =>
    exact .inl ⟨(Except.error.inj h).symm, .inl (hzero.elim width_of_empty id)⟩
  split at h
  next hcells =>
    exact .inr ⟨(Except.error.inj h).symm, cellCount?_eq_none.mp hcells⟩
  next count hcells =>
    obtain ⟨_, rfl⟩ := cellCount?_eq_some.mp hcells
    split at h
    next hcount => exact .inl ⟨(Except.error.inj h).symm, .inr hcount⟩
    next => cases h

/-- Rows of text are taken by the number of their characters alone. Where it is the number of
rows times the width of the first, they are cut anew at that width, and rows of one length stay in
place; where it is not, the three numbers are reported. -/
theorem ofRows_by_count {α : Type} (rows : List String) :
    ((∃ m, ofRows rows = (.ok m : Except (ParameterError α) ActiveMask)) ↔ Fit rows) ∧
      (∀ m, ofRows rows = (.ok m : Except (ParameterError α) ActiveMask) →
        m.CutFrom rows ∧ (IsRectangle rows → m.Draws rows)) ∧
      (∀ e : ParameterError α, ofRows rows = .error e →
        (e = .shape (.maskCount (characters rows).length rows.length (width rows)) ∧
            (width rows = 0 ∨ (characters rows).length ≠ rows.length * width rows)) ∨
          (e = .shape (.uncountable rows.length (width rows)) ∧
            wordSize ≤ rows.length * width rows)) ∧
      (IsRectangle rows ↔ ∀ r ≤ rows.length, start rows r = r * width rows) ∧
      (IsRectangle rows →
        (Fit rows ↔ width rows ≠ 0 ∧ rows.length * width rows < wordSize)) := by
  refine ⟨⟨?_, fun hfit => ⟨_, ofRows_eq_ok_iff.mpr ⟨rfl, hfit⟩⟩⟩, ?_,
    fun e he => eq_of_ofRows_error he, isRectangle_iff_start, IsRectangle.fit_iff⟩
  · rintro ⟨m, hm⟩
    exact (ofRows_eq_ok_iff.mp hm).2
  · intro m hm
    obtain ⟨rfl, hfit⟩ := ofRows_eq_ok_iff.mp hm
    have hcut := cutFrom_flags hfit.length_characters
    exact ⟨hcut, hcut.draws⟩

theorem two_rows_drawn :
    ∃ m, ofRows ["#.#", "..."] = (.ok m : Except (ParameterError Float) ActiveMask) ∧
      m.Draws ["#.#", "..."] := by
  obtain ⟨hpass, hmask, _⟩ := @ofRows_by_count Float ["#.#", "..."]
  obtain ⟨m, hm⟩ := hpass.mpr ⟨by decide, by decide, by decide⟩
  exact ⟨m, hm, (hmask m hm).2 (by decide)⟩

/-- Rows of two, one and three characters pass as three rows of two. -/
theorem ragged_rows_pass :
    ∃ m, ofRows ["##", "#", "###"] = (.ok m : Except (ParameterError Float) ActiveMask) ∧
      ¬IsRectangle ["##", "#", "###"] ∧ m.active 1 1 = true ∧
      char? ["##", "#", "###"] 1 1 = none :=
  ⟨⟨3, 2, Array.replicate 6 true⟩, rfl, by decide, by decide, by decide⟩

end ActiveMask
end BasRelief
