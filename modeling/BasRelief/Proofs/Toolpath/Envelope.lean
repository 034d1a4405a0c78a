import BasRelief.Proofs.Config.Accepted
import BasRelief.Proofs.Toolpath.Coverage
import BasRelief.Proofs.Toolpath.PassDepths
import BasRelief.Proofs.Toolpath.StrokePath

/-!
# The work envelope

In exact arithmetic the machine stays inside a box: over the grid, and at the safe height or
between the deepest cut and the surface. One move that names only coordinates of the box keeps the
machine in it, so it is enough to know what the moves of a plan name. Before the first two rapids
the machine can be anywhere.
-/

namespace BasRelief

structure Envelope where
  width : Rat
  length : Rat
  safeZ : Rat
  bottom : Rat

namespace Envelope

structure Contains (e : Envelope) (q : Position Rat) : Prop where
  x : 0 ≤ q.x ∧ q.x ≤ e.width
  y : 0 ≤ q.y ∧ q.y ≤ e.length
  z : q.z = e.safeZ ∨ (e.bottom ≤ q.z ∧ q.z ≤ 0)

/-- A move that names only coordinates of the envelope: a cut goes to a depth, a rapid to no
height but the safe one. -/
structure Allows (e : Envelope) (m : Motion Rat) : Prop where
  x : ∀ x ∈ m.target.x, 0 ≤ x ∧ x ≤ e.width
  y : ∀ y ∈ m.target.y, 0 ≤ y ∧ y ≤ e.length
  cut : m.isCut = true → ∃ z ∈ m.target.z, e.bottom ≤ z ∧ z ≤ 0
  rapid : m.isRapid = true → ∀ z ∈ m.target.z, z = e.safeZ

variable {e : Envelope}

/-- Each axis is where the move puts it, or where it was. -/
theorem forall_getD {P : Rat → Prop} {named : Option Rat} {v : Rat} (h : ∀ x ∈ named, P x)
    (hv : P v) : P (named.getD v) := by
  cases named with
  | none => exact hv
  | some x => exact h x rfl

theorem Allows.z {m : Motion Rat} (h : e.Allows m) :
    ∀ z ∈ m.target.z, z = e.safeZ ∨ (e.bottom ≤ z ∧ z ≤ 0) := by
  intro z hz
  cases m with
  | rapid target feed => exact .inl (h.rapid rfl z hz)
  | cut target feed =>
    obtain ⟨w, hw, hrange⟩ := h.cut rfl
    obtain rfl := Option.mem_unique hw hz
    exact .inr hrange

theorem Allows.contains {m : Motion Rat} (h : e.Allows m) {q : Position Rat}
    (hq : e.Contains q) : e.Contains (m.target.move q) where
  x := forall_getD h.x hq.x
  y := forall_getD h.y hq.y
  z := forall_getD h.z hq.z

theorem contains_legs {ms : List (Motion Rat)} (h : ∀ m ∈ ms, e.Allows m) {q : Position Rat}
    (hq : e.Contains q) : ∀ l ∈ Motion.legs q ms, e.Contains l.start ∧ e.Contains l.stop := by
  induction ms generalizing q with
  | nil => exact fun l hl => by cases hl
  | cons m ms ih =>
    have hnext : e.Contains (m.target.move q) := (h m List.mem_cons_self).contains hq
    intro l hl
    obtain rfl | hl := List.mem_cons.mp hl
    · exact ⟨hq, hnext⟩
    · exact ih (fun m hm => h m (List.mem_cons_of_mem _ hm)) hnext l hl

theorem Allows.cut_stop {l : Leg Rat} (h : e.Allows l.motion) (hcut : l.motion.isCut = true) :
    e.bottom ≤ l.stop.z ∧ l.stop.z ≤ 0 := by
  obtain ⟨z, hz, hrange⟩ := h.cut hcut
  rw [Leg.stop, Target.move, Option.mem_def.mp hz]
  exact hrange

theorem Allows.rapid_stop {l : Leg Rat} (h : e.Allows l.motion)
    (hrapid : l.motion.isRapid = true) (hnamed : l.motion.target.z.isSome = true) :
    l.stop.z = e.safeZ := by
  obtain ⟨z, hz⟩ := Option.isSome_iff_exists.mp hnamed
  rw [Leg.stop, Target.move, hz]
  exact h.rapid hrapid z hz

end Envelope

/-! ### Strokes -/

/-- The cell that a stroke names is active. -/
def Stroke.OnActive (m : ActiveMask) : Stroke → Prop
  | approach row col => m.active row col = true
  | carve row col => m.active row col = true
  | retract => True

theorem StrokePath.onActive {m : ActiveMask} {t u : Tool} {ss : List Stroke}
    (h : StrokePath m t ss u) : ∀ s ∈ ss, s.OnActive m := by
  induction h with
  | nil t => exact fun s hs => by cases hs
  | cons first _ ih =>
    intro s hs
    obtain rfl | hs := List.mem_cons.mp hs
    · cases first with
      | approach active => exact active
      | plunge active => exact active
      | advance _ nextActive _ => exact nextActive
      | retract => trivial
    · exact ih s hs

namespace ToolpathParameters

/-- The envelope of a grid with the given sides that is cut no deeper than `bottom`. -/
def envelope (p : ToolpathParameters Rat) (rows cols : Nat) (bottom : Rat) : Envelope where
  width := (cols - 1) * p.step
  length := (rows - 1) * p.step
  safeZ := p.safeZ
  bottom := bottom

/-! ### Coordinates of cells -/

theorem place_within {p : ToolpathParameters Rat} (hstep : 0 < p.step) {index count : Nat}
    (h : index < count) : 0 ≤ p.place index ∧ p.place index ≤ (count - 1) * p.step := by
  have hplace : p.place index = (index : Rat) * p.step := rfl
  have hindex : (index : Rat) ≤ count - 1 := by
    have hsucc : (index + 1 : Rat) ≤ count := mod_cast h
    linarith
  rw [hplace]
  exact ⟨mul_nonneg (Nat.cast_nonneg index) hstep.le, by gcongr⟩

theorem allows_lift (p : ToolpathParameters Rat) (feed : Option Rat) (rows cols : Nat)
    (bottom : Rat) : (p.envelope rows cols bottom).Allows (.rapid (.zOnly p.safeZ) feed) where
  x := by rintro x ⟨⟩
  y := by rintro y ⟨⟩
  cut := by rintro ⟨⟩
  rapid := by
    rintro _ z ⟨⟩
    rfl

theorem allows_cutAt {p : ToolpathParameters Rat} (hstep : 0 < p.step) {rows cols row col : Nat}
    (hrow : row < rows) (hcol : col < cols) {bottom z : Rat} (hz : bottom ≤ z ∧ z ≤ 0) :
    (p.envelope rows cols bottom).Allows (p.cutAt row col z) where
  x := by
    rintro x ⟨⟩
    exact place_within hstep hcol
  y := by
    rintro y ⟨⟩
    exact place_within hstep hrow
  cut := fun _ => ⟨z, rfl, hz⟩
  rapid := by rintro ⟨⟩

theorem allows_traverseTo {p : ToolpathParameters Rat} (hstep : 0 < p.step)
    {rows cols row col : Nat} (hrow : row < rows) (hcol : col < cols) (bottom : Rat) :
    (p.envelope rows cols bottom).Allows (p.traverseTo row col) where
  x := by
    rintro x ⟨⟩
    exact place_within hstep hcol
  y := by
    rintro y ⟨⟩
    exact place_within hstep hrow
  cut := by rintro ⟨⟩
  rapid := by
    rintro _ z ⟨⟩
    rfl

/-! ### Surface scans and passes -/

theorem mem_of_get? {g : HeightGrid Rat} {row col : Nat} {height : Rat}
    (h : g.get? row col = some height) : row < g.rows ∧ col < g.cols ∧ height ∈ g.values := by
  unfold HeightGrid.get? at h
  split at h
  · next hsides => exact ⟨hsides.1, hsides.2, Array.mem_of_getElem? h⟩
  · cases h

theorem allows_surfaceMoves {p : ToolpathParameters Rat} (hstep : 0 < p.step)
    {g : HeightGrid Rat} (hcells : ∀ v ∈ g.values, 0 ≤ v ∧ v ≤ g.maxHeight) :
    ∀ m ∈ p.surfaceMoves g, (p.envelope g.rows g.cols (-g.maxHeight)).Allows m := by
  intro m hm
  obtain ⟨row, _, hm⟩ := List.mem_flatMap.mp hm
  obtain hm | hm := List.mem_append.mp hm
  · obtain ⟨col, _, hm⟩ := List.mem_filterMap.mp hm
    obtain ⟨height, hheight, rfl⟩ := Option.map_eq_some_iff.mp hm
    obtain ⟨hrow, hcol, hmem⟩ := mem_of_get? hheight
    obtain ⟨hlow, hhigh⟩ := hcells height hmem
    exact allows_cutAt hstep hrow hcol ⟨neg_le_neg hhigh, neg_nonpos.mpr hlow⟩
  · split at hm
    · obtain rfl := List.mem_singleton.mp hm
      exact p.allows_lift none _ _ _
    · cases hm

theorem allows_passMoves {p : ToolpathParameters Rat} (hstep : 0 < p.step) (mask : ActiveMask)
    {bottom depth : Rat} (hdepth : bottom ≤ depth ∧ depth ≤ 0) :
    ∀ m ∈ p.passMoves mask depth, (p.envelope mask.rows mask.cols bottom).Allows m := by
  intro m hm
  obtain ⟨stroke, hstroke, rfl⟩ := List.mem_map.mp hm
  have hactive := mask.strokePath_strokes.onActive stroke hstroke
  cases stroke with
  | approach row col =>
    obtain ⟨hrow, hcol⟩ := ActiveMask.lt_cols_of_active hactive
    exact allows_traverseTo hstep hrow hcol bottom
  | carve row col =>
    obtain ⟨hrow, hcol⟩ := ActiveMask.lt_cols_of_active hactive
    exact allows_cutAt hstep hrow hcol hdepth
  | retract => exact p.allows_lift none _ _ _

end ToolpathParameters

/-! ### Whole plans -/

open Motion

/-- From the end of the first two moves on, which are rapids, the machine is inside the envelope;
every cut ends in the material, and every rapid that names a height ends at the safe one. -/
structure StaysInside (e : Envelope) (start : Position Rat) (plan : Plan Rat) : Prop where
  rapids_first : ∃ a b rest, plan.motions = a :: b :: rest ∧ a.isRapid = true ∧ b.isRapid = true ∧
    ∀ l ∈ legs (replay start [a, b]) rest, e.Contains l.start ∧ e.Contains l.stop
  cuts : ∀ l ∈ legs start plan.motions, l.motion.isCut = true →
    e.bottom ≤ l.stop.z ∧ l.stop.z ≤ 0
  rapids : ∀ l ∈ legs start plan.motions, l.motion.isRapid = true →
    l.motion.target.z.isSome = true → l.stop.z = e.safeZ

namespace Generator

theorem step_pos_exact (g : Generator Rat) : 0 < g.params.step :=
  isPositive_iff_pos.mp g.step_pos

theorem contains_origin {p : ToolpathParameters Rat} (hstep : 0 < p.step) {rows cols : Nat}
    (hrows : rows ≠ 0) (hcols : cols ≠ 0) (bottom : Rat) :
    (p.envelope rows cols bottom).Contains ⟨0, 0, p.safeZ⟩ := by
  have hzero : p.place 0 = 0 := zero_mul p.step
  have hx := ToolpathParameters.place_within hstep (Nat.pos_of_ne_zero hcols)
  have hy := ToolpathParameters.place_within hstep (Nat.pos_of_ne_zero hrows)
  rw [hzero] at hx hy
  exact ⟨hx, hy, .inl rfl⟩

theorem allows_toOrigin {p : ToolpathParameters Rat} (hstep : 0 < p.step) {rows cols : Nat}
    (hrows : rows ≠ 0) (hcols : cols ≠ 0) (bottom : Rat) :
    (p.envelope rows cols bottom).Allows toOrigin := by
  have horigin := contains_origin hstep hrows hcols bottom
  refine ⟨?_, ?_, ?_, ?_⟩
  · rintro x ⟨⟩
    exact horigin.x
  · rintro y ⟨⟩
    exact horigin.y
  · rintro ⟨⟩
  · rintro _ z ⟨⟩

theorem staysInside_sections {p : ToolpathParameters Rat} (hstep : 0 < p.step) {rows cols : Nat}
    (hrows : rows ≠ 0) (hcols : cols ≠ 0) {bottom : Rat} {moves : List (Motion Rat)}
    (hmoves : ∀ m ∈ moves, (p.envelope rows cols bottom).Allows m) (start : Position Rat)
    {plan : Plan Rat} (hplan : plan.motions = opening p ++ moves ++ closing p) :
    StaysInside (p.envelope rows cols bottom) start plan := by
  have horigin := allows_toOrigin hstep hrows hcols bottom
  have hafter : ∀ m ∈ moves ++ closing p, (p.envelope rows cols bottom).Allows m := by
    intro m hm
    simp only [closing, List.mem_append, List.mem_cons, List.not_mem_nil, or_false] at hm
    obtain hm | rfl | rfl := hm
    · exact hmoves m hm
    · exact p.allows_lift none rows cols bottom
    · exact horigin
  have hall : ∀ m ∈ plan.motions, (p.envelope rows cols bottom).Allows m := by
    intro m hm
    rw [hplan, List.append_assoc] at hm
    obtain hm | hm := List.mem_append.mp hm
    · simp only [opening, List.mem_cons, List.not_mem_nil, or_false] at hm
      obtain rfl | rfl := hm
      · exact p.allows_lift _ rows cols bottom
      · exact horigin
    · exact hafter m hm
  refine ⟨⟨_, _, moves ++ closing p, by rw [hplan, List.append_assoc]; rfl, rfl, rfl, ?_⟩, ?_, ?_⟩
  · exact Envelope.contains_legs hafter (contains_origin hstep hrows hcols bottom)
  · exact fun l hl hcut => (hall l.motion (motion_mem_of_mem_legs hl)).cut_stop hcut
  · exact fun l hl hrapid hz => (hall l.motion (motion_mem_of_mem_legs hl)).rapid_stop hrapid hz

/-- In exact arithmetic, from any position, a plan stays inside the envelope of its grid: down to
the greatest height of a height grid, and down to the total depth over a mask. -/
theorem plans_stay_inside (g : Generator Rat) (time : String) (start : Position Rat) :
    (∀ grid : HeightGrid Rat, grid.rows ≠ 0 → grid.cols ≠ 0 →
      (∀ v ∈ grid.values, 0 ≤ v ∧ v ≤ grid.maxHeight) →
      StaysInside
        { width := (grid.cols - 1) * g.params.step, length := (grid.rows - 1) * g.params.step
          safeZ := g.params.safeZ, bottom := -grid.maxHeight }
        start (g.singlePass time grid)) ∧
    ∀ (mask : ActiveMask) (total : Rat) (plan : Plan Rat), mask.rows ≠ 0 → mask.cols ≠ 0 →
      total ≤ 0 → g.multiPass time mask total = .ok plan →
      StaysInside
        { width := (mask.cols - 1) * g.params.step, length := (mask.rows - 1) * g.params.step
          safeZ := g.params.safeZ, bottom := total }
        start plan := by
  constructor
  · intro grid hrows hcols hcells
    exact staysInside_sections g.step_pos_exact hrows hcols
      (ToolpathParameters.allows_surfaceMoves g.step_pos_exact hcells) start
      (motions_singlePass g time grid)
  · intro mask total plan hrows hcols htotal hplan
    obtain ⟨depths, hdepths, rfl⟩ := multiPass_eq_ok hplan
    have hwithin := passDepths_within htotal hdepths
    have hmoves : ∀ m ∈ depths.flatMap (g.params.passMoves mask),
        (g.params.envelope mask.rows mask.cols total).Allows m := by
      intro m hm
      obtain ⟨depth, hdepth, hm⟩ := List.mem_flatMap.mp hm
      exact ToolpathParameters.allows_passMoves g.step_pos_exact mask (hwithin depth hdepth) m hm
    exact staysInside_sections g.step_pos_exact hrows hcols hmoves start
      (motions_planOfDepths g.params time mask total depths)

/-- Every grid that can be made has the sides and the cells that the envelope asks for. -/
theorem cells_of_new {rows cols : Nat} {values : Array Rat} {maxHeight : Rat}
    {grid : HeightGrid Rat} (h : HeightGrid.new rows cols values maxHeight = .ok grid) :
    grid.rows ≠ 0 ∧ grid.cols ≠ 0 ∧ ∀ v ∈ grid.values, 0 ≤ v ∧ v ≤ grid.maxHeight := by
  obtain ⟨rfl, hrows, hcols, _, hcells⟩ := HeightGrid.new_eq_ok h
  refine ⟨hrows, hcols, fun v hv => ?_⟩
  have hrange : decide (v < (0 : Nat)) = false ∧ decide (maxHeight < v) = false := by
    simpa [HeightGrid.refuses, Scalar.isFinite, Scalar.less, Scalar.zero, Scalar.natural]
      using hcells v hv
  have hlow := of_decide_eq_false hrange.1
  rw [Nat.cast_zero] at hlow
  exact ⟨not_lt.mp hlow, not_lt.mp (of_decide_eq_false hrange.2)⟩

/-- Half a millimetre from point to point, in exact numbers. -/
def fineEngraver : Generator Rat where
  params :=
    { step := 1 / 2, safeZ := 5, rapidFeed := 3000, cutFeed := 1500, maxDepthPerPass := 2,
      toolDiameter := 3 }
  accepted := by decide +kernel

def slope : HeightGrid Rat := ⟨2, 3, 2, #[0, 1, 2, 2, 1, 1 / 2]⟩

def fineEngravingPlan : Plan Rat :=
  planOfDepths fineEngraver.params "2026-01-01 00:00:00 UTC" engraving (-3) [-2, -3]

theorem slope_and_engraving_stay_inside :
    HeightGrid.new 2 3 slope.values 2 = .ok slope ∧
      fineEngraver.multiPass "2026-01-01 00:00:00 UTC" engraving (-3) = .ok fineEngravingPlan ∧
      StaysInside ⟨(3 - 1) * (1 / 2), (2 - 1) * (1 / 2), 5, -2⟩ ⟨7, 7, -1⟩
        (fineEngraver.singlePass "2026-01-01 00:00:00 UTC" slope) ∧
      StaysInside ⟨(4 - 1) * (1 / 2), (2 - 1) * (1 / 2), 5, -3⟩ ⟨7, 7, -1⟩ fineEngravingPlan := by
  have hnew : HeightGrid.new 2 3 slope.values 2 = .ok slope := by decide +kernel
  have hdepths : passDepths (-3 : Rat) fineEngraver.params.maxDepthPerPass = .ok [-2, -3] := by
    decide +kernel
  have hplan : fineEngraver.multiPass "2026-01-01 00:00:00 UTC" engraving (-3) =
      .ok fineEngravingPlan := by
    rw [multiPass, hdepths]
    rfl
  obtain ⟨hgrid, hmask⟩ := plans_stay_inside fineEngraver "2026-01-01 00:00:00 UTC" ⟨7, 7, -1⟩
  obtain ⟨hrows, hcols, hcells⟩ := cells_of_new hnew
  exact ⟨hnew, hplan, hgrid slope hrows hcols hcells,
    hmask engraving (-3) fineEngravingPlan (by decide) (by decide) (by decide +kernel) hplan⟩

end Generator
end BasRelief
