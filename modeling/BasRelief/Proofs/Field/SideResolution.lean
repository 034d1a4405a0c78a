import BasRelief.Proofs.Field.GridSides
import BasRelief.Proofs.Number.ExactRounding

/-!
# From a wanted size to sides

A size is refused for an image without pixels, for a given length that is not a positive number,
or for a side that has too many points once it is rounded; what is not a number is no reason of its
own, since it rounds to the one point that every side has. In exact arithmetic an image without a
wanted size keeps its pixels, a given length is met within half a step, and a missing height
follows the sides of the image.
-/

namespace BasRelief.TargetSize

/-! ### Sizes that are refused -/

section
variable {α : Type} [Scalar α] {t : TargetSize α} {imageWidth imageHeight : Nat} {steps : α}

/-- Why a size is refused. -/
inductive Refused (t : TargetSize α) (imageWidth imageHeight : Nat) (steps : α) : Prop where
  | emptyImage (h : imageWidth = 0 ∨ imageHeight = 0)
  | width {v : α} (given : t.width = some v) (h : Scalar.isPositive v = false)
  | height {v : α} (given : t.height = some v) (h : Scalar.isPositive v = false)
  | cols (h : Scalar.less (Scalar.natural maxGridPoints)
      (Scalar.round (t.widthFor imageWidth steps * steps)) = true)
  | rows (h : Scalar.less (Scalar.natural maxGridPoints)
      (Scalar.round (t.heightFor imageWidth imageHeight steps * steps)) = true)

theorem exists_error_iff_not_accepted :
    (∃ e, t.gridSides imageWidth imageHeight steps = .error e) ↔
      ¬t.Accepted imageWidth imageHeight steps := by
  cases h : t.gridSides imageWidth imageHeight steps with
  | error e =>
    refine iff_of_true ⟨e, rfl⟩ fun haccepted => ?_
    rw [gridSides_eq_ok_iff.mpr ⟨haccepted, rfl⟩] at h
    cases h
  | ok s => exact iff_of_false nofun (not_not_intro (gridSides_eq_ok_iff.mp h).1)

theorem exists_error_iff
    (hmost : ∀ length : α, Scalar.atMost (points length steps) (Scalar.natural maxGridPoints) =
      !Scalar.less (Scalar.natural maxGridPoints) (Scalar.round (length * steps))) :
    (∃ e, t.gridSides imageWidth imageHeight steps = .error e) ↔
      t.Refused imageWidth imageHeight steps := by
  rw [exists_error_iff_not_accepted]
  constructor
  · intro h
    by_contra hrefused
    refine h ⟨?_, fun v hv => ?_, fun v hv => ?_, ?_, ?_⟩
    · exact not_or.mp fun himage => hrefused (.emptyImage himage)
    · exact Bool.of_not_eq_false fun hfault => hrefused (.width hv hfault)
    · exact Bool.of_not_eq_false fun hfault => hrefused (.height hv hfault)
    · rw [hmost, Bool.not_eq_true']
      exact Bool.of_not_eq_true fun hmany => hrefused (.cols hmany)
    · rw [hmost, Bool.not_eq_true']
      exact Bool.of_not_eq_true fun hmany => hrefused (.rows hmany)
  · intro hrefused h
    have hcols := h.cols
    have hrows := h.rows
    rw [hmost, Bool.not_eq_true'] at hcols hrows
    cases hrefused with
    | emptyImage himage => exact himage.elim h.image.1 h.image.2
    | width given hfault => exact absurd (h.width _ given) (ne_true_of_eq_false hfault)
    | height given hfault => exact absurd (h.height _ given) (ne_true_of_eq_false hfault)
    | cols hmany => exact absurd hmany (ne_true_of_eq_false hcols)
    | rows hmany => exact absurd hmany (ne_true_of_eq_false hrows)

end

/-! ### Doubles -/

open Double in
/-- What is not a number is rounded to one point, and all else keeps its place above it. -/
theorem atMost_points (length steps : Float) :
    Scalar.atMost (points length steps) (Scalar.natural maxGridPoints) =
      !Scalar.less (Scalar.natural maxGridPoints) (Scalar.round (length * steps)) := by
  have hone := isNumber_of_value? value?_one
  have hmost := isNumber_of_value? value?_most
  have honeMost : Scalar.atMost (Scalar.one : Float) (Scalar.natural maxGridPoints) = true :=
    (atMost_iff value?_one value?_most).mpr (by norm_num [maxGridPoints])
  rw [points, Scalar.maximum, hone, Bool.not_true, if_neg Bool.false_ne_true]
  cases hside : Scalar.less Scalar.one (Scalar.round (length * steps)) with
  | true =>
    have hnumber := (isNumber_of_less hside).2
    rw [if_pos rfl, atMost_eq_not_less hnumber hmost]
  | false =>
    rw [if_neg Bool.false_ne_true, honeMost, eq_comm, Bool.not_eq_true']
    refine eq_false_of_ne_true fun hmany => ?_
    have hnumber := (isNumber_of_less hmany).2
    -- a side above the limit would be above one point
    rw [less_iff_place hmost hnumber] at hmany
    rw [atMost_iff_place hone hmost] at honeMost
    exact ne_true_of_eq_false hside ((less_iff_place hone hnumber).mpr (honeMost.trans_lt hmany))

/-! ### Exact arithmetic -/

section
variable {t : TargetSize Rat} {imageWidth imageHeight : Nat} {steps length : Rat} {s : GridSides}

theorem points_eq (length steps : Rat) :
    points length steps = max (Exact.round (length * steps)) 1 := by
  rw [points, Exact.maximum_eq_max]
  rfl

theorem atMost_points_exact (length steps : Rat) :
    Scalar.atMost (points length steps) (Scalar.natural maxGridPoints) =
      !Scalar.less (Scalar.natural maxGridPoints) (Scalar.round (length * steps)) := by
  have hone : (1 : Rat) ≤ (maxGridPoints : Nat) := by norm_num [maxGridPoints]
  rw [points_eq]
  show decide (_ ≤ ((maxGridPoints : Nat) : Rat)) = !decide (_ < _)
  rw [← decide_not]
  simp only [max_le_iff, hone, and_true, not_lt]
  rfl

/-- A side is a whole number already. -/
theorem natCast_truncate_points (length steps : Rat) :
    (Scalar.truncate (points length steps) : Rat) = max (Exact.round (length * steps)) 1 := by
  obtain ⟨k, hk⟩ := Exact.exists_round_eq_intCast (length * steps)
  have hpoints : points length steps = ((max k 1 : Int) : Rat) := by
    rw [points_eq, hk, Int.cast_max, Int.cast_one]
  have hnonneg : ((max k 1).toNat : Int) = max k 1 := Int.toNat_of_nonneg (by omega)
  rw [← points_eq, hpoints, Exact.truncate_intCast]
  exact_mod_cast congrArg (Int.cast (R := Rat)) hnonneg

theorem abs_sub_truncate_points_le (h : 1 / 2 ≤ length * steps) :
    |length * steps - Scalar.truncate (points length steps)| ≤ 1 / 2 := by
  have hround := (Exact.one_le_round_iff (by linarith)).mpr h
  rw [natCast_truncate_points, max_eq_left hround]
  exact Exact.abs_sub_round_le _

/-- How the sides meet what was wanted. -/
structure Meets (t : TargetSize Rat) (imageWidth imageHeight : Nat) (steps : Rat)
    (s : GridSides) : Prop where
  inRange : s.InRange
  width : ∀ v, t.width = some v → 1 / 2 ≤ v * steps → |s.cols / steps - v| ≤ 1 / (2 * steps)
  height : ∀ v, t.height = some v → 1 / 2 ≤ v * steps → |s.rows / steps - v| ≤ 1 / (2 * steps)
  aspect : ∀ v, t.width = some v → t.height = none → 1 / 2 ≤ v * steps →
    1 / 2 ≤ v * (imageHeight / imageWidth) * steps →
    |s.rows - s.cols * (imageHeight / imageWidth : Rat)| ≤ (1 + imageHeight / imageWidth) / 2

theorem truncate_points_exact
    (h : Scalar.atMost (points length steps) (Scalar.natural maxGridPoints) = true) :
    1 ≤ Scalar.truncate (points length steps) ∧
      Scalar.truncate (points length steps) ≤ maxGridPoints := by
  have hcast := natCast_truncate_points length steps
  have hmost : points length steps ≤ (maxGridPoints : Nat) := of_decide_eq_true h
  rw [← points_eq] at hcast
  have hone : 1 ≤ points length steps := (points_eq length steps).symm ▸ le_max_right _ _
  exact ⟨by exact_mod_cast hcast.symm ▸ hone, by exact_mod_cast hcast.symm ▸ hmost⟩

theorem inRange_exact (h : t.gridSides imageWidth imageHeight steps = .ok s) : s.InRange :=
  inRange_of_truncate (fun _ => truncate_points_exact) h

theorem abs_truncate_div_sub_le (hsteps : 0 < steps) (h : 1 / 2 ≤ length * steps) :
    |Scalar.truncate (points length steps) / steps - length| ≤ 1 / (2 * steps) := by
  have hpoints := abs_sub_truncate_points_le h
  have hsplit : (Scalar.truncate (points length steps) : Rat) / steps - length =
      -(length * steps - Scalar.truncate (points length steps)) / steps := by
    field_simp
    ring
  calc |(Scalar.truncate (points length steps) : Rat) / steps - length|
      = |length * steps - Scalar.truncate (points length steps)| / steps := by
        rw [hsplit, abs_div, abs_neg, abs_of_pos hsteps]
    _ ≤ 1 / 2 / steps := by gcongr
    _ = 1 / (2 * steps) := div_div 1 2 steps

theorem meets_of_gridSides (hsteps : 0 < steps)
    (h : t.gridSides imageWidth imageHeight steps = .ok s) :
    t.Meets imageWidth imageHeight steps s := by
  have hrange := inRange_exact h
  obtain ⟨_, rfl⟩ := gridSides_eq_ok_iff.mp h
  refine ⟨hrange, fun v hv hpoint => ?_, fun v hv hpoint => ?_, fun v hv hnone hcol hrow => ?_⟩
  · rw [widthFor, hv]
    exact abs_truncate_div_sub_le hsteps hpoint
  · rw [heightFor, hv]
    exact abs_truncate_div_sub_le hsteps hpoint
  · have hwidth : t.widthFor imageWidth steps = v := by rw [widthFor, hv, Option.getD_some]
    have hheight : t.heightFor imageWidth imageHeight steps = v * (imageHeight / imageWidth) := by
      rw [heightFor, hnone, Option.getD_none, hwidth]
      rfl
    have hcols := abs_sub_truncate_points_le hcol
    have hrows := abs_sub_truncate_points_le hrow
    rw [hwidth, hheight]
    generalize (Scalar.truncate (points v steps) : Rat) = cols at hcols ⊢
    generalize hratio : (imageHeight / imageWidth : Rat) = ratio at hrows ⊢
    have hnonneg : 0 ≤ ratio := hratio ▸ by positivity
    -- the half point that the columns are off is turned into rows by the ratio of the image
    have hturned : |v * steps * ratio - cols * ratio| ≤ 1 / 2 * ratio := by
      rw [← sub_mul, abs_mul, abs_of_nonneg hnonneg]
      exact mul_le_mul_of_nonneg_right hcols hnonneg
    rw [mul_right_comm] at hrows
    obtain ⟨hlow, hhigh⟩ := abs_le.mp hrows
    obtain ⟨hlow', hhigh'⟩ := abs_le.mp hturned
    rw [abs_le]
    constructor <;> linarith

theorem points_of_natural {n : Nat} (h : length * steps = n) (hn : 1 ≤ n) :
    points length steps = n := by
  have hround : Exact.round (n : Rat) = n := by exact_mod_cast Exact.round_intCast n
  rw [points_eq, h, hround, max_eq_left (by exact_mod_cast hn)]

/-- Without a wanted size every pixel becomes a point. -/
theorem gridSides_of_pixels (hsteps : 0 < steps)
    (hwidth : 1 ≤ imageWidth ∧ imageWidth ≤ maxGridPoints)
    (hheight : 1 ≤ imageHeight ∧ imageHeight ≤ maxGridPoints) :
    ({} : TargetSize Rat).gridSides imageWidth imageHeight steps =
      .ok ⟨imageWidth, imageHeight⟩ := by
  have hpixels : (0 : Rat) < imageWidth := by exact_mod_cast hwidth.1
  have hcols : points (widthFor {} imageWidth steps) steps = (imageWidth : Rat) :=
    points_of_natural (div_mul_cancel₀ _ hsteps.ne') hwidth.1
  have hrows : points (heightFor {} imageWidth imageHeight steps) steps = (imageHeight : Rat) := by
    refine points_of_natural ?_ hheight.1
    show (imageWidth / steps * (imageHeight / imageWidth) * steps : Rat) = imageHeight
    field_simp
  have htruncate : ∀ n : Nat, Scalar.truncate (n : Rat) = n := fun n => Exact.truncate_intCast n
  rw [gridSides_eq_ok_iff, hcols, hrows, htruncate, htruncate]
  refine ⟨⟨⟨by omega, by omega⟩, nofun, nofun, ?_, ?_⟩, rfl⟩
  · rw [hcols]
    exact decide_eq_true (Nat.cast_le.mpr hwidth.2)
  · rw [hrows]
    exact decide_eq_true (Nat.cast_le.mpr hheight.2)

end

/-- Whatever the resolution is, sides have from one point up to the limit; they are refused for an
image without pixels, a given length that is not a positive number, and a rounded side above the
limit. In exact arithmetic they meet what was wanted. -/
theorem gridSides_resolved :
    (∀ (t : TargetSize Float) (imageWidth imageHeight : Nat) (steps : Float),
      (∀ s, t.gridSides imageWidth imageHeight steps = .ok s → s.InRange) ∧
        ((∃ e, t.gridSides imageWidth imageHeight steps = .error e) ↔
          t.Refused imageWidth imageHeight steps)) ∧
      ∀ (t : TargetSize Rat) (imageWidth imageHeight : Nat) (steps : Rat), 0 < steps →
        (t.width = none → t.height = none → 1 ≤ imageWidth ∧ imageWidth ≤ maxGridPoints →
          1 ≤ imageHeight ∧ imageHeight ≤ maxGridPoints →
          t.gridSides imageWidth imageHeight steps = .ok ⟨imageWidth, imageHeight⟩) ∧
        (∀ s, t.gridSides imageWidth imageHeight steps = .ok s →
          t.Meets imageWidth imageHeight steps s) ∧
        ((∃ e, t.gridSides imageWidth imageHeight steps = .error e) ↔
          t.Refused imageWidth imageHeight steps) := by
  constructor
  · intro t imageWidth imageHeight steps
    exact ⟨fun s hs => inRange_of_gridSides hs,
      exists_error_iff fun length => atMost_points length steps⟩
  · intro t imageWidth imageHeight steps hsteps
    refine ⟨?_, fun s hs => meets_of_gridSides hsteps hs,
      exists_error_iff fun length => atMost_points_exact length steps⟩
    intro hnoWidth hnoHeight hwidth hheight
    have ht : t = {} := by
      cases t
      exact congrArg₂ TargetSize.mk hnoWidth hnoHeight
    rw [ht]
    exact gridSides_of_pixels hsteps hwidth hheight

/-- A width of 10.3 at two points per unit, for an image of three by two. -/
theorem landscape_resolved :
    ∃ s, ({ width := some (103 / 10) } : TargetSize Rat).gridSides 300 200 2 = .ok s ∧
      s.cols = 21 ∧ s.rows = 14 ∧
      ({ width := some (103 / 10) } : TargetSize Rat).Meets 300 200 2 s := by
  have hsides : ({ width := some (103 / 10) } : TargetSize Rat).gridSides 300 200 2 =
      .ok ⟨21, 14⟩ := by decide +kernel
  obtain ⟨_, hmeets, _⟩ :=
    gridSides_resolved.2 { width := some (103 / 10) } 300 200 2 (by norm_num)
  exact ⟨_, hsides, rfl, rfl, hmeets _ hsides⟩

end BasRelief.TargetSize
