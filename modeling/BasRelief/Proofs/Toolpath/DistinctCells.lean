import BasRelief.Proofs.Config.Accepted
import BasRelief.Proofs.Gcode.PlanText
import BasRelief.Proofs.Gcode.WordOrder
import BasRelief.Proofs.Number.Overflow
import BasRelief.Proofs.Toolpath.SurfaceScan

/-!
# Cells that the program keeps apart

The coordinate of a column is a multiple of the step, and a program shows it in thousandths. The
step, the multiple and its thousandfold are each rounded. No two cells of a grid are shown at one
place exactly if no two neighbouring columns and no two neighbouring rows are. Columns are shown
apart as long as they drift by less than half a thousandth from their own numbers, or the step
exceeds a thousandth by more than the errors, and as long as their coordinates are finite.
-/

namespace BasRelief
open Gcode Double Float.Model.UnpackedFloat

/-! ### Multiples of the step -/

/-- What a multiple of the thousandfold step becomes is off by a small part of it. -/
def NearMultiple (q : Rat) (i : Nat) (v : Rat) : Prop := |v - q * i| ≤ q * i * (13 / 2 ^ 55)

theorem abs_sub_le_of_large {q v : Rat} (h : Nearest q v) (hq : q = 0 ∨ 1 / 2000 ≤ q) :
    |q - v| ≤ q / 2 ^ 53 := by
  have hq0 : 0 ≤ q := by
    obtain rfl | hlarge := hq
    · exact le_rfl
    · exact (by norm_num : (0 : Rat) ≤ 1 / 2000).trans hlarge
  have hleast : (2 : Rat) ^ (-1022 : Int) ≤ 1 / 2000 := by decide +kernel
  have hnormal : IsNormal q :=
    hq.imp_right fun hlarge => hleast.trans (hlarge.trans (le_abs_self q))
  have herror := h.abs_sub_le hnormal
  rwa [abs_of_nonneg hq0] at herror

/-- The step, its multiple and the thousandfold of that are each rounded. -/
theorem nearMultiple_of_nearest {q w t v : Rat} {i : Nat} (hq : 51 / 100 ≤ q)
    (hstep : Nearest (q / 1000) w) (hplace : Nearest (i * w) t) (hv : Nearest (t * 1000) v) :
    0 ≤ v ∧ NearMultiple q i v := by
  obtain ⟨hlow, hhigh⟩ := abs_le.mp (abs_sub_le_of_large hstep (.inr (by linarith)))
  have hw : 1 / 2000 ≤ w := by linarith
  obtain rfl | hpos := Nat.eq_zero_or_pos i
  · rw [Nat.cast_zero, zero_mul] at hplace
    rw [hplace.eq_zero, zero_mul] at hv
    rw [hv.eq_zero, NearMultiple, Nat.cast_zero, mul_zero, zero_mul, sub_zero, abs_zero]
    exact ⟨le_rfl, le_rfl⟩
  · have hone : (1 : Rat) ≤ i := mod_cast hpos
    have hmultiple : 1 / 2000 ≤ i * w := hw.trans (le_mul_of_one_le_left (by linarith) hone)
    have hlow' : (q / 1000 - q / 1000 / 2 ^ 53) * i ≤ w * i :=
      mul_le_mul_of_nonneg_right (by linarith) (Nat.cast_nonneg i)
    have hhigh' : w * i ≤ (q / 1000 + q / 1000 / 2 ^ 53) * i :=
      mul_le_mul_of_nonneg_right (by linarith) (Nat.cast_nonneg i)
    have hq0 : 0 ≤ q * i := mul_nonneg (by linarith) (Nat.cast_nonneg i)
    obtain ⟨hleft, hright⟩ := abs_le.mp (abs_sub_le_of_large hplace (.inr hmultiple))
    have hcoordinate : 1 / 2000 ≤ t * 1000 := by linarith
    -- each error is a part of the last result, so together they are a part of the multiple
    obtain ⟨hleft', hright'⟩ := abs_le.mp (abs_sub_le_of_large hv (.inr hcoordinate))
    refine ⟨by linarith, ?_⟩
    rw [NearMultiple, abs_le]
    constructor <;> linarith

theorem exists_nearMultiple {p : ToolpathParameters Float} {q w : Rat} (hq : 51 / 100 ≤ q)
    (hw : value? p.step = some w) (hstep : Nearest (q / 1000) w) {i : Nat} (hi : i < 2 ^ 53)
    (hfinite : Scalar.isFinite (p.place i * Scalar.natural 1000) = true) :
    ∃ v, value? (p.place i * Scalar.natural 1000) = some v ∧ 0 ≤ v ∧ NearMultiple q i v := by
  obtain ⟨v, hv⟩ := (isFinite_iff _).mp hfinite
  have hrounds : Rounds (p.place i) (i * w) := rounds_mul (value?_ofNat hi) hw
  cases hrounds with
  | finite ht hplace =>
    have hthousand := (rounds_mul ht value?_thousand).nearest hv
    exact ⟨v, hv, nearMultiple_of_nearest hq hstep hplace hthousand⟩
  | overflow infinite sign large =>
    rw [value?_infinite (unpack_mul_infinite infinite value?_thousand (by norm_num))] at hv
    cases hv

/-! ### Steps that are shown -/

/-- Which sides a step of `q` thousandths can tell apart. Where the multiples drift from the whole
numbers by less than a half, each is shown as its own number; where the step exceeds a thousandth by
more than the errors, each is shown above the last. -/
inductive Resolves (q : Rat) (side : Nat) : Prop where
  | numbered (drift : |q - 1| * side ≤ 49 / 100) (bound : side ≤ 2 ^ 40)
  | spread (excess : 1 ≤ q * (1 - 7 * side / 2 ^ 53)) (bound : side ≤ 2 ^ 40)

namespace Resolves
variable {q : Rat} {side : Nat}

theorem bound (h : Resolves q side) : side ≤ 2 ^ 40 := by
  cases h <;> assumption

theorem large (h : Resolves q side) (hside : 0 < side) : 51 / 100 ≤ q := by
  have hone : (1 : Rat) ≤ side := mod_cast hside
  cases h with
  | numbered drift bound =>
    have hdrift : |q - 1| ≤ 49 / 100 :=
      (le_mul_of_one_le_right (abs_nonneg _) hone).trans drift
    linarith [(abs_le.mp hdrift).1]
  | spread excess bound =>
    have hbound : (side : Rat) ≤ 2 ^ 40 := mod_cast bound
    by_contra hsmall
    have hproduct : q * (1 - 7 * side / 2 ^ 53) ≤ 51 / 100 * (1 - 7 * side / 2 ^ 53) :=
      mul_le_mul_of_nonneg_right (not_le.mp hsmall).le (by linarith)
    linarith

/-- Up to a thousand steps per millimetre the two ways meet. -/
theorem of_le {s : Rat} (hs : 0 < s) (hle : s ≤ 1000) (hside : side ≤ 25000000) :
    Resolves (1000 / s) side := by
  have hside' : (side : Rat) ≤ 25000000 := mod_cast hside
  have hone : 1 ≤ 1000 / s := (one_le_div hs).mpr hle
  obtain hnear | hover := le_or_gt (1000 / s) (1 + 195 / 10 ^ 10)
  · refine .numbered ?_ (by omega)
    rw [abs_of_nonneg (by linarith)]
    calc (1000 / s - 1) * side ≤ 195 / 10 ^ 10 * 25000000 :=
          mul_le_mul (by linarith) hside' (Nat.cast_nonneg side) (by norm_num)
      _ ≤ 49 / 100 := by norm_num
  · refine .spread ?_ (by omega)
    calc (1 : Rat) ≤ (1 + 195 / 10 ^ 10) * (1 - 7 * 25000000 / 2 ^ 53) := by norm_num
      _ ≤ 1000 / s * (1 - 7 * side / 2 ^ 53) :=
          mul_le_mul hover.le (by linarith) (by norm_num) (by linarith)

end Resolves

theorem round_of_drift {q v : Rat} {i side : Nat} (hdrift : |q - 1| * side ≤ 49 / 100)
    (hbound : side ≤ 2 ^ 40) (hi : i ≤ side) (hv : 0 ≤ v) (h : NearMultiple q i v) :
    Exact.round v = i := by
  have hi' : (i : Rat) ≤ side := mod_cast hi
  have hbound' : (side : Rat) ≤ 2 ^ 40 := mod_cast hbound
  have hmultiple : |q * i - i| ≤ 49 / 100 := by
    rw [← sub_one_mul, abs_mul, abs_of_nonneg (Nat.cast_nonneg i : (0 : Rat) ≤ i)]
    exact (mul_le_mul_of_nonneg_left hi' (abs_nonneg _)).trans hdrift
  obtain ⟨hbelow, habove⟩ := abs_le.mp hmultiple
  obtain ⟨hleft, hright⟩ := abs_le.mp h
  have hnear : |(v.num.natAbs / v.den : Rat) - i| < 1 / 2 := by
    rw [← Exact.abs_eq_div, abs_of_nonneg hv, abs_lt]
    constructor <;> linarith
  rw [Exact.round_of_nonneg hv, Decimal.nearestUp_eq_of_abs_lt v.den_pos hnear]

theorem lt_of_excess {q v v' r r' : Rat} {i j k n k' n' side : Nat} (hq : 0 ≤ q)
    (hexcess : 1 ≤ q * (1 - 7 * side / 2 ^ 53)) (hbound : side ≤ 2 ^ 40) (hij : i < j)
    (hj : j ≤ side) (hv : 0 ≤ v) (hv' : 0 ≤ v') (h : NearMultiple q i v)
    (h' : NearMultiple q j v') (hshown : ShownAs v k n r) (hshown' : ShownAs v' k' n' r') :
    r < r' := by
  have hbound' : (side : Rat) ≤ 2 ^ 40 := mod_cast hbound
  have hstep : q * (i + 1) ≤ q * j := mul_le_mul_of_nonneg_left (mod_cast hij) hq
  have hlast : q * j ≤ q * side := mul_le_mul_of_nonneg_left (mod_cast hj) hq
  have hwhole : q * side ≤ q * 2 ^ 40 := mul_le_mul_of_nonneg_left hbound' hq
  have hhigh := (abs_le.mp h).2
  obtain ⟨hlow', hhigh'⟩ := abs_le.mp h'
  -- where the numbers stand on the line they decide; above, the gap is still part of the multiple
  obtain hsmall | hlarge := lt_or_ge k' (2 ^ 50)
  · refine hshown.lt_of_units_lt hshown' ?_ hsmall
    have hround := hshown.rounded
    have hround' := hshown'.rounded
    rw [Exact.round_of_nonneg hv, Nat.cast_inj] at hround
    rw [Exact.round_of_nonneg hv', Nat.cast_inj] at hround'
    rw [← hround, ← hround']
    apply Decimal.nearestUp_lt_nearestUp v.den_pos v'.den_pos
    rw [← Exact.abs_eq_div, ← Exact.abs_eq_div, abs_of_nonneg hv, abs_of_nonneg hv']
    linarith
  · refine hshown.lt_of_apart hshown' ?_ hlarge
    linarith

/-! ### Columns -/

/-- A column or row with the word that its coordinate is read back as. -/
structure ShownLine (p : ToolpathParameters Float) (q : Rat) (i : Nat) (x : Float) (r : Rat) :
    Prop where
  read : readBack 3 (thousandths (p.place i)) = some x
  value : value? x = some r
  shown : ∃ v units shown, 0 ≤ v ∧ NearMultiple q i v ∧ ShownAs v units shown r

theorem ShownLine.less {p : ToolpathParameters Float} {q r r' : Rat} {i j side : Nat}
    {x x' : Float} (hresolves : Resolves q side) (hij : i < j) (hj : j < side)
    (h : ShownLine p q i x r) (h' : ShownLine p q j x' r') : Scalar.less x x' = true := by
  have hq := hresolves.large (by omega)
  obtain ⟨v, k, n, hv, hnear, hshown⟩ := h.shown
  obtain ⟨v', k', n', hv', hnear', hshown'⟩ := h'.shown
  rw [less_iff h.value h'.value]
  cases hresolves with
  | numbered drift bound =>
    have hk := hshown.rounded.symm.trans (round_of_drift drift bound (by omega) hv hnear)
    have hk' := hshown'.rounded.symm.trans (round_of_drift drift bound (by omega) hv' hnear')
    rw [Nat.cast_inj] at hk hk'
    exact hshown.lt_of_units_lt hshown' (by omega) (by omega)
  | spread excess bound =>
    exact lt_of_excess (by linarith) excess bound hij hj.le hv hv' hnear hnear' hshown hshown'

theorem ShownLine.index_unique {p : ToolpathParameters Float} {q r r' : Rat} {i j side : Nat}
    {x : Float} (hresolves : Resolves q side) (hi : i < side) (hj : j < side)
    (h : ShownLine p q i x r) (h' : ShownLine p q j x r') : i = j := by
  have hirreflexive : Scalar.less x x ≠ true := by
    rw [Ne, less_iff h.value h.value]
    exact lt_irrefl r
  obtain hlt | rfl | hgt := Nat.lt_trichotomy i j
  · exact absurd (h.less hresolves hlt hj h') hirreflexive
  · rfl
  · exact absurd (h'.less hresolves hgt hi h) hirreflexive

theorem rounds_step_of_ofParameters {config : Config} {g : Generator Float}
    (hg : Generator.ofParameters config.generator.toolpath = .ok g) {s : Rat}
    (hs : value? config.generator.stepsPerMm = some s) (hpos : 0 < s) :
    Rounds g.params.step (1 / s) := by
  have hone : value? (1 : Float) = some 1 := by decide +kernel
  have hstep : g.params.step = 1 / config.generator.stepsPerMm := by
    rw [Generator.params_of_ofParameters hg]
    rfl
  rw [hstep]
  exact rounds_div hone hs hpos.ne'

theorem exists_shownLine {config : Config} {g : Generator Float}
    (hg : Generator.ofParameters config.generator.toolpath = .ok g) {s : Rat}
    (hs : value? config.generator.stepsPerMm = some s) (hpos : 0 < s) {side : Nat}
    (hresolves : Resolves (1000 / s) side) {i : Nat} (hi : i < side)
    (hfinite : Scalar.isFinite (g.params.place i * Scalar.natural 1000) = true) :
    ∃ x r, ShownLine g.params (1000 / s) i x r := by
  obtain ⟨w, hw, _⟩ := (isPositive_iff _).mp g.step_pos
  have hnearest : Nearest (1000 / s / 1000) w := by
    have hquotient : 1000 / s / 1000 = 1 / s := by
      rw [div_right_comm, div_self (by norm_num)]
    rw [hquotient]
    exact (rounds_step_of_ofParameters hg hs hpos).nearest hw
  have hbound := hresolves.bound
  obtain ⟨v, hv, hv0, hnear⟩ :=
    exists_nearMultiple (hresolves.large (by omega)) hw hnearest (by omega) hfinite
  obtain ⟨x, units, shown, r, hread, hvalue, hshown⟩ := exists_shownAs hv hv0
  exact ⟨x, r, hread, hvalue, v, units, shown, hv0, hnear, hshown⟩

/-! ### The cuts of a program -/

/-- The X and Y words of each cut of a program. -/
def cutPlaces {α : Type} [Scalar α] (text : String) : List (Option α × Option α) :=
  ((Modal.tokens 1 (Text.lines text.toList)).filter fun t => t.gNumber = some 1).map
    fun t => (t.words.x, t.words.y)

section
variable {α : Type} [Scalar α]

/-- The value of the word for a column or a row, if it has one. -/
def ToolpathParameters.lineWord (p : ToolpathParameters α) (index : Nat) : Option α :=
  readBack 3 (thousandths (p.place index))

def ToolpathParameters.readPlace (p : ToolpathParameters α) (cell : Nat × Nat) :
    Option α × Option α :=
  (p.lineWord cell.2, p.lineWord cell.1)

theorem map_words_filter_isCut (p : ToolpathParameters α) {grid : HeightGrid α}
    (hstored : grid.Stored) :
    ((p.surfaceMoves grid).filter Motion.isCut).map
        (fun m => ((motionToken m).words.x, (motionToken m).words.y)) =
      (scanCells grid.rows grid.cols).map p.readPlace := by
  apply List.map_injective_iff.mpr (Option.some_injective _)
  have hcuts := congrArg
    (List.map (Option.map fun m => ((motionToken m).words.x, (motionToken m).words.y)))
    (p.map_some_filter_isCut_surfaceMoves hstored)
  rw [List.map_map, List.map_map] at hcuts
  rw [List.map_map, List.map_map]
  refine hcuts.trans (List.map_congr_left ?_)
  rintro ⟨row, col⟩ hcell
  obtain ⟨hrow, hcol⟩ := mem_scanCells.mp hcell
  obtain ⟨height, hheight⟩ := hstored row col hrow hcol
  simp only [Function.comp_apply, ToolpathParameters.cellCut?, hheight, Option.map_some,
    words_motionToken]
  rfl

theorem cutPlaces_singlePass [PrintsValues α] (g : Generator α) {time : String}
    (htime : Text.IsLine time.toList) {grid : HeightGrid α} (hstored : grid.Stored) :
    cutPlaces (program (g.singlePass time grid)) =
      (scanCells grid.rows grid.cols).map g.params.readPlace := by
  have hlines := (Generator.Makes.single grid : g.Makes time _).isOneLine htime
  have hcuts : (g.singlePass time grid).motions.filter Motion.isCut =
      (g.params.surfaceMoves grid).filter Motion.isCut := by
    rw [Generator.motions_singlePass, List.filter_append, List.filter_append]
    exact List.append_nil _
  rw [cutPlaces, tokens_program hlines, filter_cut_stepTokens, List.map_map]
  exact (congrArg (List.map _) hcuts).trans (map_words_filter_isCut g.params hstored)

end

/-- The places of the cells of a grid differ exactly if those of its columns and its rows do. -/
theorem nodup_map_readPlace_iff {α : Type} [Scalar α] (p : ToolpathParameters α) {rows cols : Nat}
    (hrows : 0 < rows) (hcols : 0 < cols) :
    ((scanCells rows cols).map p.readPlace).Nodup ↔
      Set.InjOn p.lineWord {col | col < cols} ∧ Set.InjOn p.lineWord {row | row < rows} := by
  constructor
  · intro hnodup
    have hcells := List.inj_on_of_nodup_map hnodup
    constructor
    · intro col hcol col' hcol' hword
      have hcell := hcells (mem_scanCells.mpr ⟨hrows, hcol⟩) (mem_scanCells.mpr ⟨hrows, hcol'⟩)
        (congrArg₂ Prod.mk hword rfl)
      exact (Prod.mk.inj hcell).2
    · intro row hrow row' hrow' hword
      have hcell := hcells (mem_scanCells.mpr ⟨hrow, hcols⟩) (mem_scanCells.mpr ⟨hrow', hcols⟩)
        (congrArg₂ Prod.mk rfl hword)
      exact (Prod.mk.inj hcell).1
  · rintro ⟨hinCols, hinRows⟩
    refine (nodup_scanCells rows cols).map_on ?_
    rintro ⟨row, col⟩ hcell ⟨row', col'⟩ hcell' hplaces
    obtain ⟨hrow, hcol⟩ := mem_scanCells.mp hcell
    obtain ⟨hrow', hcol'⟩ := mem_scanCells.mp hcell'
    obtain ⟨hx, hy⟩ := Prod.mk.inj hplaces
    exact Prod.ext (hinRows hrow hrow' hy) (hinCols hcol hcol' hx)

/-- Columns with the same thousandths are not told apart. -/
theorem not_nodup_cutPlaces {α : Type} [Scalar α] [PrintsValues α] (g : Generator α)
    {time : String} (htime : Text.IsLine time.toList) {grid : HeightGrid α}
    (hstored : grid.Stored) (hrows : 0 < grid.rows) {col next : Nat} (hne : col ≠ next)
    (hcol : col < grid.cols) (hnext : next < grid.cols)
    (hsame : thousandths (g.params.place col) = thousandths (g.params.place next)) :
    ¬ (cutPlaces (program (g.singlePass time grid)) : List (Option α × Option α)).Nodup := by
  rw [cutPlaces_singlePass g htime hstored,
    nodup_map_readPlace_iff _ hrows (Nat.zero_lt_of_lt hcol)]
  exact fun hapart => hne (hapart.1 hcol hnext (congrArg (readBack 3) hsame))

/-! ### Neighbouring columns -/

section
variable {p : ToolpathParameters Float} {w : Rat}

theorem precedes_place (hw : value? p.step = some w) (hpos : 0 < w) {i j : Nat} (hij : i ≤ j) :
    Precedes (p.place i * Scalar.natural 1000) (p.place j * Scalar.natural 1000) :=
  ((precedes_natural hij).mul hw hpos).mul value?_thousand (by norm_num)

/-- Columns with one word enclose neighbours with one word. -/
theorem injOn_lineWord_iff (hw : value? p.step = some w) (hpos : 0 < w) (side : Nat) :
    Set.InjOn p.lineWord {i | i < side} ↔
      ∀ i, i + 1 < side → p.lineWord i ≠ p.lineWord (i + 1) := by
  have hbetween {i j : Nat} (hij : i < j) (hword : p.lineWord i = p.lineWord j) :
      p.lineWord i = p.lineWord (i + 1) :=
    read_eq_of_between (precedes_place hw hpos (Nat.le_succ i)) (precedes_place hw hpos hij) hword
  constructor
  · intro hinj i hi hword
    have hsame := hinj (Nat.lt_of_succ_lt hi) hi hword
    omega
  · intro hneighbours i hi j hj hword
    simp only [Set.mem_ofPred_eq] at hi hj
    obtain hlt | rfl | hgt := Nat.lt_trichotomy i j
    · exact absurd (hbetween hlt hword) (hneighbours i (by omega))
    · rfl
    · exact absurd (hbetween hgt hword.symm) (hneighbours j (by omega))

/-- Where the thousandths can be counted, neighbours have one word exactly if they are rounded to
the same number of them. -/
theorem lineWord_eq_succ_iff (hw : value? p.step = some w) (hpos : 0 < w) {i : Nat} {v v' : Rat}
    (hv : value? (p.place i * Scalar.natural 1000) = some v)
    (hv' : value? (p.place (i + 1) * Scalar.natural 1000) = some v')
    (hsmall : Exact.round v' < 2 ^ 50) :
    p.lineWord i = p.lineWord (i + 1) ↔ Exact.round v = Exact.round v' := by
  obtain ⟨a, b, ha, hb, hle⟩ := precedes_place hw hpos (Nat.le_succ i)
  cases ha with
  | infinite hx =>
    rw [value?_infinite hx] at hv
    cases hv
  | value hx nonneg =>
    obtain rfl := Option.some.inj (hv.symm.trans hx)
    cases hb with
    | infinite hy =>
      rw [value?_infinite hy] at hv'
      cases hv'
    | value hy =>
      obtain rfl := Option.some.inj (hv'.symm.trans hy)
      exact read_eq_iff hv hv' nonneg (WithTop.coe_le_coe.mp hle) hsmall

end

/-- Where the step can be told apart and the coordinates are finite, no two columns have one
word. -/
theorem injOn_lineWord_of_resolves {config : Config} {g : Generator Float}
    (hg : Generator.ofParameters config.generator.toolpath = .ok g) {s : Rat}
    (hs : value? config.generator.stepsPerMm = some s) (hpos : 0 < s) {side : Nat}
    (hresolves : Resolves (1000 / s) side)
    (hfinite : ∀ i < side, Scalar.isFinite (g.params.place i * Scalar.natural 1000) = true) :
    Set.InjOn g.params.lineWord {i | i < side} := by
  intro i hi j hj hword
  obtain ⟨x, r, h⟩ := exists_shownLine hg hs hpos hresolves hi (hfinite i hi)
  obtain ⟨x', r', h'⟩ := exists_shownLine hg hs hpos hresolves hj (hfinite j hj)
  obtain rfl : x = x' := Option.some.inj (h.read.symm.trans (hword.trans h'.read))
  exact h.index_unique hresolves hi hj h'

/-- Coordinates stay far below the greatest double. -/
theorem isFinite_place {config : Config} {g : Generator Float}
    (hg : Generator.ofParameters config.generator.toolpath = .ok g) {s : Rat}
    (hs : value? config.generator.stepsPerMm = some s) (hlow : 1 / 10 ^ 290 ≤ s) {i : Nat}
    (hi : i < 25000000) : Scalar.isFinite (g.params.place i * Scalar.natural 1000) = true := by
  have hpos : 0 < s := lt_of_lt_of_le (by positivity) hlow
  have hpower : (1 / (1 / 10 ^ 290) : Rat) ≤ 2 ^ (964 : Int) := by decide +kernel
  have hquotient : |1 / s| ≤ 2 ^ (964 : Int) := by
    rw [abs_of_pos (one_div_pos.mpr hpos)]
    exact (one_div_le_one_div_of_le (by positivity) hlow).trans hpower
  have hstep : Within (2 ^ (964 : Int)) g.params.step :=
    (rounds_step_of_ofParameters hg hs hpos).within (by decide) (by decide) hquotient
  have hindex : Within (2 ^ (25 : Int)) (Scalar.natural i : Float) := by
    refine ⟨i, value?_ofNat (by omega), ?_⟩
    rw [Nat.abs_cast]
    have hcast : (i : Rat) ≤ 25000000 := by exact_mod_cast hi.le
    exact hcast.trans (by norm_num)
  have hthousand : Within (2 ^ (10 : Int)) (Scalar.natural 1000 : Float) :=
    ⟨1000, value?_thousand, by norm_num⟩
  have hplace := hindex.mul hstep (by decide) (by decide)
  exact (hplace.mul hthousand (by decide) (by decide)).isFinite

/-- No two cuts of a single pass have one pair of words exactly if no two neighbouring columns and
no two neighbouring rows have one word. Up to `2 ^ 50` thousandths these are the neighbours that are
rounded to one number of thousandths, and there are none of them from `1e-290` to a thousand steps
per millimetre on sides up to 25000000. -/
theorem singlePass_cells_apart {config : Config} (hvalid : config.fault? = none)
    {g : Generator Float} (hg : Generator.ofParameters config.generator.toolpath = .ok g)
    {time : String} (htime : Text.IsLine time.toList) {rows cols : Nat} {values : Array Float}
    {maxHeight : Float} {grid : HeightGrid Float}
    (hgrid : HeightGrid.new rows cols values maxHeight = .ok grid) :
    cutPlaces (program (g.singlePass time grid)) =
        (scanCells rows cols).map
          (fun cell => (g.params.lineWord cell.2, g.params.lineWord cell.1)) ∧
      ((cutPlaces (program (g.singlePass time grid)) : List (Option Float × Option Float)).Nodup ↔
        (∀ col, col + 1 < cols → g.params.lineWord col ≠ g.params.lineWord (col + 1)) ∧
        ∀ row, row + 1 < rows → g.params.lineWord row ≠ g.params.lineWord (row + 1)) ∧
      (∀ (i : Nat) (v v' : Rat), value? (g.params.place i * Scalar.natural 1000) = some v →
        value? (g.params.place (i + 1) * Scalar.natural 1000) = some v' →
        Exact.round v' < 2 ^ 50 →
        (g.params.lineWord i = g.params.lineWord (i + 1) ↔ Exact.round v = Exact.round v')) ∧
      ∀ s : Rat, value? config.generator.stepsPerMm = some s → 1 / 10 ^ 290 ≤ s → s ≤ 1000 →
        rows ≤ 25000000 → cols ≤ 25000000 →
        (cutPlaces (program (g.singlePass time grid)) :
          List (Option Float × Option Float)).Nodup := by
  obtain ⟨rfl, hrows, hcols, hsize, _⟩ := HeightGrid.new_eq_ok hgrid
  obtain ⟨w, hw, hpos⟩ := (isPositive_iff _).mp g.step_pos
  have hstored : HeightGrid.Stored ⟨rows, cols, maxHeight, values⟩ :=
    HeightGrid.stored_of_size hsize
  have hplaces := cutPlaces_singlePass g htime hstored
  have hapart := nodup_map_readPlace_iff g.params (Nat.pos_of_ne_zero hrows)
    (Nat.pos_of_ne_zero hcols)
  refine ⟨hplaces, ?neighbours, fun i v v' => lineWord_eq_succ_iff hw hpos, ?range⟩
  case neighbours =>
    rw [hplaces, hapart, injOn_lineWord_iff hw hpos, injOn_lineWord_iff hw hpos]
  case range =>
    intro s hs hlow hhigh hrowsBound hcolsBound
    obtain ⟨s', hs', hspos⟩ := (isPositive_iff _).mp (Config.stepsPerMm_pos hvalid)
    obtain rfl := Option.some.inj (hs.symm.trans hs')
    have hside {side : Nat} (hbound : side ≤ 25000000) :
        Set.InjOn g.params.lineWord {i | i < side} :=
      injOn_lineWord_of_resolves hg hs hspos (.of_le hspos hhigh hbound)
        fun i hi => isFinite_place hg hs hlow (hi.trans_le hbound)
    rw [hplaces]
    exact hapart.mpr ⟨hside hcolsBound, hside hrowsBound⟩

/-! ### Resolutions that are shown and that are not -/

def flatRow (cols : Nat) : HeightGrid Float := ⟨1, cols, 1, Array.replicate (1 * cols) 0⟩

theorem new_flatRow {cols : Nat} (hcols : cols ≠ 0) (hcount : 1 * cols < wordSize) :
    HeightGrid.new 1 cols (flatRow cols).values 1 = .ok (flatRow cols) := by
  have hrefused : (flatRow cols).values.toList.find? (HeightGrid.refuses 1) = none := by
    rw [List.find?_eq_none]
    intro v hv
    rw [flatRow, Array.toList_replicate] at hv
    rw [List.eq_of_mem_replicate hv]
    decide +kernel
  have hcounted : cellCount? 1 cols = some (1 * cols) := cellCount?_eq_some.mpr ⟨hcount, rfl⟩
  have hsize : (flatRow cols).values.size = 1 * cols := Array.size_replicate
  unfold HeightGrid.new
  rw [if_neg (by simp [hcols]), hcounted]
  dsimp only
  rw [if_neg (by rw [hsize]; exact fun h => h rfl), hrefused]
  rfl

def thousandthConfig : Config := { generator := { stepsPerMm := 1000 } }

def thousandthCarver : Generator Float := ⟨thousandthConfig.generator.toolpath, by decide +kernel⟩

theorem thousandth_cells_apart :
    (cutPlaces (program (thousandthCarver.singlePass "2026-01-01 00:00:00 UTC" (flatRow 3))) :
      List (Option Float × Option Float)).Nodup := by
  have hvalid : thousandthConfig.fault? = none := by decide +kernel
  have hsteps : value? thousandthConfig.generator.stepsPerMm = some 1000 := by decide +kernel
  obtain ⟨_, _, _, hrange⟩ := singlePass_cells_apart hvalid
    (Generator.ofParameters_eq_ok thousandthCarver.accepted)
    (show Text.IsLine "2026-01-01 00:00:00 UTC".toList by decide)
    (new_flatRow (show 3 ≠ 0 by decide) (by decide))
  exact hrange 1000 hsteps (by decide +kernel) le_rfl (by decide) (by decide)

def denseConfig : Config := { generator := { stepsPerMm := 2000 } }

def denseCarver : Generator Float := ⟨denseConfig.generator.toolpath, by decide +kernel⟩

/-- The step exceeds a thousandth by less than the roundings of a long row. -/
def longConfig : Config := { generator := { stepsPerMm := 999.99999615979254 } }

def longCarver : Generator Float := ⟨longConfig.generator.toolpath, by decide +kernel⟩

/-- The step is a double, and the thousandfold of a single one is not. -/
def vastConfig : Config := { generator := { stepsPerMm := 1e-306 } }

def vastCarver : Generator Float := ⟨vastConfig.generator.toolpath, by decide +kernel⟩

theorem dense_cells_collapse :
    (denseConfig.fault? = none ∧
      Generator.ofParameters denseConfig.generator.toolpath = .ok denseCarver ∧
      HeightGrid.new 1 3 (flatRow 3).values 1 = .ok (flatRow 3) ∧
      ¬ (cutPlaces (program (denseCarver.singlePass "2026-01-01 00:00:00 UTC" (flatRow 3))) :
        List (Option Float × Option Float)).Nodup) ∧
    (longConfig.fault? = none ∧
      Generator.ofParameters longConfig.generator.toolpath = .ok longCarver ∧
      HeightGrid.new 1 130201299 (flatRow 130201299).values 1 = .ok (flatRow 130201299) ∧
      ¬ (cutPlaces (program (longCarver.singlePass "2026-01-01 00:00:00 UTC" (flatRow 130201299))) :
        List (Option Float × Option Float)).Nodup) ∧
    (vastConfig.fault? = none ∧
      Generator.ofParameters vastConfig.generator.toolpath = .ok vastCarver ∧
      HeightGrid.new 1 3 (flatRow 3).values 1 = .ok (flatRow 3) ∧
      ¬ (cutPlaces (program (vastCarver.singlePass "2026-01-01 00:00:00 UTC" (flatRow 3))) :
        List (Option Float × Option Float)).Nodup) := by
  have htime : Text.IsLine "2026-01-01 00:00:00 UTC".toList := by decide
  have hstored (cols : Nat) : (flatRow cols).Stored :=
    HeightGrid.stored_of_size Array.size_replicate
  refine ⟨?dense, ?long, ?vast⟩
  case dense =>
    exact ⟨by decide +kernel, Generator.ofParameters_eq_ok denseCarver.accepted,
      new_flatRow (by decide) (by decide),
      not_nodup_cutPlaces denseCarver htime (hstored 3) Nat.one_pos (show 1 ≠ 2 by decide)
        (show 1 < 3 by decide) (show 2 < 3 by decide) (by decide +kernel)⟩
  case long =>
    exact ⟨by decide +kernel, Generator.ofParameters_eq_ok longCarver.accepted,
      new_flatRow (by decide) (by decide),
      not_nodup_cutPlaces longCarver htime (hstored 130201299) Nat.one_pos
        (show 130201297 ≠ 130201298 by decide) (show 130201297 < 130201299 by decide)
        (show 130201298 < 130201299 by decide) (by decide +kernel)⟩
  case vast =>
    exact ⟨by decide +kernel, Generator.ofParameters_eq_ok vastCarver.accepted,
      new_flatRow (by decide) (by decide),
      not_nodup_cutPlaces vastCarver htime (hstored 3) Nat.one_pos (show 1 ≠ 2 by decide)
        (show 1 < 3 by decide) (show 2 < 3 by decide) (by decide +kernel)⟩

end BasRelief
