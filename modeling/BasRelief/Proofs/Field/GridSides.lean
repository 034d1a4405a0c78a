import BasRelief.Field.HeightGrid
import BasRelief.Field.TargetSize
import BasRelief.Proofs.Number.Counts
import BasRelief.Proofs.Number.Line

/-!
# Sides of a grid

A size gives sides exactly if it passes every check. Whatever an image, a size and a resolution
are, not-a-number included, the sides that they give are at least one and at most the limit, so the
cells of a grid can always be counted.
-/

namespace BasRelief

structure GridSides.InRange (s : GridSides) : Prop where
  cols_pos : 1 ≤ s.cols
  cols_le : s.cols ≤ maxGridPoints
  rows_pos : 1 ≤ s.rows
  rows_le : s.rows ≤ maxGridPoints

theorem GridSides.InRange.countable {s : GridSides} (h : s.InRange) :
    s.rows ≠ 0 ∧ s.cols ≠ 0 ∧ s.rows * s.cols < wordSize := by
  have hproduct : s.rows * s.cols ≤ maxGridPoints * maxGridPoints :=
    Nat.mul_le_mul h.rows_le h.cols_le
  have hmost : maxGridPoints * maxGridPoints < wordSize := by decide
  exact ⟨Nat.one_le_iff_ne_zero.mp h.rows_pos, Nat.one_le_iff_ne_zero.mp h.cols_pos,
    hproduct.trans_lt hmost⟩

namespace TargetSize

/-! ### Sizes that are accepted -/

section
variable {α : Type} [Scalar α] {t : TargetSize α} {imageWidth imageHeight : Nat} {steps : α}
  {s : GridSides}

/-- What a size passes to become sides. -/
structure Accepted (t : TargetSize α) (imageWidth imageHeight : Nat) (steps : α) : Prop where
  image : imageWidth ≠ 0 ∧ imageHeight ≠ 0
  width : ∀ v, t.width = some v → Scalar.isPositive v = true
  height : ∀ v, t.height = some v → Scalar.isPositive v = true
  cols : Scalar.atMost (points (t.widthFor imageWidth steps) steps)
    (Scalar.natural maxGridPoints) = true
  rows : Scalar.atMost (points (t.heightFor imageWidth imageHeight steps) steps)
    (Scalar.natural maxGridPoints) = true

theorem sideFault?_eq_none_iff {name : String} {length : Option α} :
    sideFault? name length = none ↔ ∀ v, length = some v → Scalar.isPositive v = true := by
  cases length with
  | none => simp [sideFault?]
  | some v => cases hv : Scalar.isPositive v <;> simp [sideFault?, hv]

theorem gridSides_eq_ok_iff :
    t.gridSides imageWidth imageHeight steps = .ok s ↔
      t.Accepted imageWidth imageHeight steps ∧
        s = ⟨Scalar.truncate (points (t.widthFor imageWidth steps) steps),
          Scalar.truncate (points (t.heightFor imageWidth imageHeight steps) steps)⟩ := by
  have hfaults : (sideFault? "width_mm" t.width <|> sideFault? "height_mm" t.height) = none ↔
      (∀ v, t.width = some v → Scalar.isPositive v = true) ∧
        ∀ v, t.height = some v → Scalar.isPositive v = true := by
    rw [Option.orElse_eq_none, sideFault?_eq_none_iff, sideFault?_eq_none_iff]
  constructor
  · intro h
    unfold gridSides at h
    split at h
    · cases h
    split at h
    · cases h
    dsimp only at h
    split at h
    · rename_i himage _ hnone hmost
      obtain ⟨hwidth, hheight⟩ := hfaults.mp hnone
      obtain ⟨hcols, hrows⟩ := Bool.and_eq_true_iff.mp hmost
      exact ⟨⟨not_or.mp himage, hwidth, hheight, hcols, hrows⟩, (Except.ok.inj h).symm⟩
    · cases h
  · rintro ⟨h, rfl⟩
    rw [gridSides, if_neg (not_or.mpr h.image), hfaults.mpr ⟨h.width, h.height⟩]
    dsimp only
    rw [h.cols, h.rows]
    rfl

/-- Sides are in range if a side that is at most the limit is truncated to a number that is. -/
theorem inRange_of_truncate
    (hside : ∀ length : α,
      Scalar.atMost (points length steps) (Scalar.natural maxGridPoints) = true →
        1 ≤ Scalar.truncate (points length steps) ∧
          Scalar.truncate (points length steps) ≤ maxGridPoints)
    (h : t.gridSides imageWidth imageHeight steps = .ok s) : s.InRange := by
  obtain ⟨haccepted, rfl⟩ := gridSides_eq_ok_iff.mp h
  obtain ⟨hcols, hcols'⟩ := hside _ haccepted.cols
  obtain ⟨hrows, hrows'⟩ := hside _ haccepted.rows
  exact ⟨hcols, hcols', hrows, hrows'⟩

end

/-! ### Sides in doubles -/

section
open Double

theorem value?_most : value? (Scalar.natural maxGridPoints : Float) = some maxGridPoints := by
  decide +kernel

/-- The points of a side are counted from one on; the upper end is looked at afterwards. -/
theorem truncate_points {length steps : Float}
    (h : Scalar.atMost (points length steps) (Scalar.natural maxGridPoints) = true) :
    1 ≤ Scalar.truncate (points length steps) ∧
      Scalar.truncate (points length steps) ≤ maxGridPoints := by
  have hvalue : ∃ v, value? (points length steps) = some v ∧ 1 ≤ v ∧ v ≤ maxGridPoints := by
    unfold points Scalar.maximum at h ⊢
    rw [isNumber_of_value? value?_one] at h ⊢
    simp only [Bool.not_true, Bool.false_eq_true, if_false] at h ⊢
    split at h
    · rw [if_pos ‹_›]
      exact exists_value?_of_between value?_one value?_most (Scalar.Lawful.atMost_of_less ‹_›) h
    · rw [if_neg ‹_›]
      exact ⟨1, value?_one, le_rfl, by norm_num [maxGridPoints]⟩
  obtain ⟨v, hv, hlow, hhigh⟩ := hvalue
  exact ⟨le_truncate hv (by exact_mod_cast hlow) (by decide), truncate_le hv hhigh⟩

theorem inRange_of_gridSides {size : TargetSize Float} {width height : Nat} {steps : Float}
    {s : GridSides} (h : size.gridSides width height steps = .ok s) : s.InRange :=
  inRange_of_truncate (fun _ => truncate_points) h

end

end TargetSize
end BasRelief
