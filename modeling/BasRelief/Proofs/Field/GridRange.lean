import BasRelief.Field.HeightGrid
import BasRelief.Proofs.Number.Counts
import BasRelief.Proofs.Number.Line

/-!
# Heights in range

A grid is made of finite heights that are not negative and not above its bound. A height is
refused where it is above the bound, and not where it fails to be at most the bound. These differ
for one bound only, the one that is not a number: it refuses nothing, and no height is at most it.
-/

namespace BasRelief

theorem Double.less_eq_false_iff {x y : Float} (hy : Scalar.isNumber y = true) :
    Scalar.less x y = false ↔ (Scalar.isNumber x = true → Scalar.atMost y x = true) := by
  constructor
  · intro h hx
    exact Scalar.Lawful.atMost_of_not_less hx hy h
  · intro h
    refine eq_false_of_ne_true fun hless => ?_
    obtain ⟨hx, _⟩ := isNumber_of_less hless
    exact (((less_iff_place hx hy).mp hless).trans_le ((atMost_iff_place hy hx).mp (h hx))).false

namespace HeightGrid

/-! ### Heights that are not refused -/

/-- What a height is under a bound. A bound that is not a number bounds nothing. -/
structure Admits (maxHeight v : Float) : Prop where
  finite : Scalar.isFinite v = true
  nonneg : Scalar.atMost Scalar.zero v = true
  bounded : Scalar.isNumber maxHeight = true → Scalar.atMost v maxHeight = true

theorem refuses_eq_false_iff {maxHeight v : Float} :
    refuses maxHeight v = false ↔ Admits maxHeight v := by
  have hzero : Scalar.isNumber (Scalar.zero : Float) = true :=
    Double.isNumber_of_value? Double.value?_zero
  have hnumber : Scalar.isFinite v = true → Scalar.isNumber v = true := by
    intro h
    obtain ⟨a, ha⟩ := (Double.isFinite_iff v).mp h
    exact Double.isNumber_of_value? ha
  rw [refuses, Bool.or_eq_false_iff, Bool.or_eq_false_iff, Bool.not_eq_false',
    Double.less_eq_false_iff hzero]
  constructor
  · rintro ⟨⟨hfinite, hnonneg⟩, hbound⟩
    have hv := hnumber hfinite
    exact ⟨hfinite, hnonneg hv, (Double.less_eq_false_iff hv).mp hbound⟩
  · rintro ⟨hfinite, hnonneg, hbound⟩
    exact ⟨⟨hfinite, fun _ => hnonneg⟩, (Double.less_eq_false_iff (hnumber hfinite)).mpr hbound⟩

/-- Every height is finite and lies between zero and the bound of the grid. -/
def InRange (g : HeightGrid Float) : Prop :=
  ∀ v ∈ g.values, Scalar.isFinite v = true ∧ Scalar.atMost Scalar.zero v = true ∧
    Scalar.atMost v g.maxHeight = true

/-- Heights that a bound admits lie in its range exactly if it is a number. -/
theorem inRange_iff {g : HeightGrid Float} (hcells : g.values.size ≠ 0)
    (h : ∀ v ∈ g.values, Admits g.maxHeight v) :
    g.InRange ↔ Scalar.isNumber g.maxHeight = true := by
  constructor
  · intro hrange
    obtain ⟨v, hv⟩ := Array.exists_mem_of_size_pos (Nat.pos_of_ne_zero hcells)
    obtain ⟨_, _, hbound⟩ := hrange v hv
    exact (Double.isNumber_of_atMost hbound).2
  · intro hnumber v hv
    exact ⟨(h v hv).finite, (h v hv).nonneg, (h v hv).bounded hnumber⟩

/-! ### Grids that are made -/

variable {rows cols : Nat} {values : Array Float} {height maxHeight : Float}

theorem new_eq_ok_iff_admits {g : HeightGrid Float} :
    new rows cols values maxHeight = .ok g ↔
      g = ⟨rows, cols, maxHeight, values⟩ ∧ (rows ≠ 0 ∧ cols ≠ 0 ∧ rows * cols < wordSize) ∧
        values.size = rows * cols ∧ ∀ v ∈ values, Admits maxHeight v := by
  simp only [new_eq_ok_iff, refuses_eq_false_iff]

theorem filled_eq_ok_iff {g : HeightGrid Float} :
    filled rows cols height maxHeight = .ok g ↔
      g = ⟨rows, cols, maxHeight, Array.replicate (rows * cols) height⟩ ∧
        (rows ≠ 0 ∧ cols ≠ 0 ∧ rows * cols ≤ longestList) ∧ Admits maxHeight height := by
  have hlists : longestList < wordSize := by decide
  rw [filled_eq_ite]
  split
  next hlong =>
    refine iff_of_false nofun ?_
    rintro ⟨_, ⟨_, _, hshort⟩, _⟩
    exact absurd hlong (Nat.not_lt.mpr hshort)
  next hlong =>
    have hshort := Nat.not_lt.mp hlong
    rw [new_eq_ok_iff_admits, Array.size_replicate]
    constructor
    · rintro ⟨hg, ⟨hrows, hcols, _⟩, _, hadmits⟩
      refine ⟨hg, ⟨hrows, hcols, hshort⟩, hadmits height ?_⟩
      exact Array.mem_replicate.mpr ⟨Nat.mul_ne_zero hrows hcols, rfl⟩
    · rintro ⟨hg, ⟨hrows, hcols, _⟩, hadmits⟩
      refine ⟨hg, ⟨hrows, hcols, hshort.trans_lt hlists⟩, rfl, fun v hv => ?_⟩
      rw [(Array.mem_replicate.mp hv).2]
      exact hadmits

/-! ### Grids that are not -/

theorem isFatal_of_new_error {e : ParameterError Float}
    (h : new rows cols values maxHeight = .error e) :
    e.isFatal = true ↔ rows ≠ 0 ∧ cols ≠ 0 ∧ wordSize ≤ rows * cols := by
  unfold new at h
  split at h
  next hzero =>
    rw [← Except.error.inj h]
    exact iff_of_false Bool.false_ne_true fun hsides => hzero.elim hsides.1 hsides.2.1
  next hzero =>
    obtain ⟨hrows, hcols⟩ := not_or.mp hzero
    split at h
    next hcells =>
      rw [← Except.error.inj h]
      exact iff_of_true rfl ⟨hrows, hcols, cellCount?_eq_none.mp hcells⟩
    next count hcells =>
      have hword := (cellCount?_eq_some.mp hcells).1
      have hreturned : e.isFatal = false := by
        split at h
        · rw [← Except.error.inj h]
          rfl
        split at h
        · rw [← Except.error.inj h]
          rfl
        · cases h
      rw [hreturned]
      exact iff_of_false Bool.false_ne_true fun hsides => absurd hword (Nat.not_lt.mpr hsides.2.2)

theorem isFatal_of_filled_error {e : ParameterError Float}
    (h : filled rows cols height maxHeight = .error e) :
    e.isFatal = true ↔ longestList < rows * cols := by
  have hlists : longestList < wordSize := by decide
  rw [filled_eq_ite] at h
  split at h
  next hlong =>
    rw [← Except.error.inj h]
    exact iff_of_true rfl hlong
  next hlong =>
    rw [isFatal_of_new_error h]
    refine iff_of_false ?_ hlong
    rintro ⟨_, _, hword⟩
    exact hlong (hlists.trans_le hword)

/-- A grid is made exactly of countable sides, as many heights as cells, and heights that its
bound admits. They are in its range if and only if the bound is a number. Where no grid is made
there is an error to return, unless the cells are too many to be counted or listed. -/
theorem made_grid_inRange (rows cols : Nat) (values : Array Float) (height maxHeight : Float) :
    (∀ g, new rows cols values maxHeight = .ok g ↔
      g = ⟨rows, cols, maxHeight, values⟩ ∧ (rows ≠ 0 ∧ cols ≠ 0 ∧ rows * cols < wordSize) ∧
        values.size = rows * cols ∧ ∀ v ∈ values, Admits maxHeight v) ∧
      (∀ g, filled rows cols height maxHeight = .ok g ↔
        g = ⟨rows, cols, maxHeight, Array.replicate (rows * cols) height⟩ ∧
          (rows ≠ 0 ∧ cols ≠ 0 ∧ rows * cols ≤ longestList) ∧ Admits maxHeight height) ∧
      (∀ g, new rows cols values maxHeight = .ok g ∨ filled rows cols height maxHeight = .ok g →
        (g.InRange ↔ Scalar.isNumber g.maxHeight = true)) ∧
      (∀ e, new rows cols values maxHeight = .error e →
        (e.isFatal = true ↔ rows ≠ 0 ∧ cols ≠ 0 ∧ wordSize ≤ rows * cols)) ∧
      ∀ e, filled rows cols height maxHeight = .error e →
        (e.isFatal = true ↔ longestList < rows * cols) := by
  refine ⟨fun g => new_eq_ok_iff_admits, fun g => filled_eq_ok_iff, ?_,
    fun e => isFatal_of_new_error, fun e => isFatal_of_filled_error⟩
  have hnew : ∀ values g, new rows cols values maxHeight = .ok g →
      (g.InRange ↔ Scalar.isNumber g.maxHeight = true) := by
    intro values g h
    obtain ⟨rfl, ⟨hrows, hcols, _⟩, hsize, hadmits⟩ := new_eq_ok_iff_admits.mp h
    exact inRange_iff (hsize.trans_ne (Nat.mul_ne_zero hrows hcols)) hadmits
  rintro g (h | h)
  · exact hnew values g h
  · rw [filled_eq_ite] at h
    split at h
    · cases h
    · exact hnew _ g h

theorem step_grid_inRange :
    ∃ g, new 1 2 #[0.0, 0.5] (1.0 : Float) = .ok g ∧ g.InRange := by
  obtain ⟨hnew, _, hrange, _⟩ := made_grid_inRange 1 2 #[0.0, 0.5] 0.0 1.0
  have hmade : new 1 2 #[0.0, 0.5] (1.0 : Float) = .ok ⟨1, 2, 1.0, #[0.0, 0.5]⟩ := by
    decide +kernel
  exact ⟨_, hmade, (hrange _ (.inl hmade)).mpr (by decide +kernel)⟩

/-- Half a millimetre stands in a grid whose bound is not a number, and is not at most it. -/
theorem boundless_grid_made :
    ∃ g, new 1 1 #[0.5] Double.notANumber = .ok g ∧ ¬g.InRange ∧
      filled 1 1 0.5 Double.notANumber = .ok g := by
  refine ⟨⟨1, 1, Double.notANumber, #[0.5]⟩, by decide +kernel, fun hrange => ?_, by decide +kernel⟩
  obtain ⟨_, _, hbound⟩ := hrange 0.5 (Array.mem_singleton.mpr rfl)
  have hunbound : Scalar.atMost (0.5 : Float) Double.notANumber = false := by decide +kernel
  exact absurd hbound (ne_true_of_eq_false hunbound)

end HeightGrid
end BasRelief
