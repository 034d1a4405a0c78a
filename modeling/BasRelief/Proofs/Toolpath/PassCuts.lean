import BasRelief.Proofs.Toolpath.Coverage

/-!
# Cuts of a plan of several passes

The cuts of a plan are the cells of the mask in the order of a pass, once for each depth. What a
cell gets is then a filter of that list, and the counts of cuts and rapids are its length and the
number of runs.
-/

namespace BasRelief

structure CellCut (α : Type) where
  pass : Nat
  row : Nat
  col : Nat
  depth : α

namespace ActiveMask
variable {α : Type}

def passCuts (m : ActiveMask) (depth : α) (pass : Nat) : List (CellCut α) :=
  m.cutOrder.map fun cell => ⟨pass, cell.1, cell.2, depth⟩

/-- The cuts of passes with the given depths, numbered from `first`. -/
def cellCuts (m : ActiveMask) (depths : List α) (first : Nat := 0) : List (CellCut α) :=
  (depths.zipIdx first).flatMap fun (depth, pass) => m.passCuts depth pass

theorem cellCuts_cons (m : ActiveMask) (depth : α) (depths : List α) (first : Nat) :
    m.cellCuts (depth :: depths) first =
      m.passCuts depth first ++ m.cellCuts depths (first + 1) := by
  simp only [cellCuts, List.zipIdx_cons, List.flatMap_cons]

theorem mem_cellCuts {m : ActiveMask} {depths : List α} {c : CellCut α}
    (h : c ∈ m.cellCuts depths) :
    depths[c.pass]? = some c.depth ∧ m.active c.row c.col = true := by
  obtain ⟨⟨depth, pass⟩, hd, hc⟩ := List.mem_flatMap.1 h
  obtain ⟨⟨row, col⟩, hcell, rfl⟩ := List.mem_map.1 hc
  exact ⟨List.mem_zipIdx_iff_getElem?.1 hd, mem_cutOrder.1 hcell⟩

/-- In each pass an active cell is cut once and any other cell never, so over all passes a cell
gets every depth or none. -/
theorem depths_of_cell (m : ActiveMask) (depths : List α) (row col first : Nat) :
    ((m.cellCuts depths first).filter fun c => c.row = row ∧ c.col = col).map CellCut.depth =
      if m.active row col then depths else [] := by
  induction depths generalizing first with
  | nil => cases m.active row col <;> rfl
  | cons depth depths ih =>
    have hpass : ((m.passCuts depth first).filter fun c => c.row = row ∧ c.col = col).map
        CellCut.depth = if m.active row col then [depth] else [] := by
      rw [passCuts, List.filter_map, Function.comp_def, m.filter_cutOrder row col]
      cases m.active row col <;> rfl
    rw [cellCuts_cons, List.filter_append, List.map_append, hpass, ih]
    cases m.active row col <;> rfl

theorem pairwise_pass (m : ActiveMask) (depths : List α) (first : Nat) :
    ((m.cellCuts depths first).map CellCut.pass).Pairwise (· ≤ ·) ∧
      ∀ c ∈ m.cellCuts depths first, first ≤ c.pass := by
  induction depths generalizing first with
  | nil => exact ⟨.nil, fun c hc => by cases hc⟩
  | cons depth depths ih =>
    obtain ⟨hsorted, hfrom⟩ := ih (first + 1)
    have hpass : ∀ c ∈ m.passCuts depth first, c.pass = first := by
      intro c hc
      obtain ⟨cell, _, rfl⟩ := List.mem_map.1 hc
      rfl
    rw [cellCuts_cons]
    constructor
    · rw [List.map_append, List.pairwise_append]
      refine ⟨?_, hsorted, ?_⟩
      · rw [List.pairwise_map]
        apply List.pairwise_of_forall_mem_list
        intro a ha b hb
        rw [hpass a ha, hpass b hb]
      · intro i hi j hj
        obtain ⟨a, ha, rfl⟩ := List.mem_map.1 hi
        obtain ⟨b, hb, rfl⟩ := List.mem_map.1 hj
        have hle := hfrom b hb
        rw [hpass a ha]
        omega
    · intro c hc
      rcases List.mem_append.1 hc with hc | hc
      · rw [hpass c hc]
      · have hle := hfrom c hc
        omega

theorem length_cellCuts (m : ActiveMask) (depths : List α) (first : Nat) :
    (m.cellCuts depths first).length = depths.length * m.cutOrder.length := by
  induction depths generalizing first with
  | nil => simp [cellCuts]
  | cons depth depths ih =>
    rw [cellCuts_cons, List.length_append, ih, passCuts, List.length_map, List.length_cons,
      Nat.succ_mul, Nat.add_comm]

end ActiveMask

namespace ToolpathParameters
variable {α : Type} [Scalar α]

/-- A cut at the column and row of the cell times the step, with the cut feed. -/
def cutMove (p : ToolpathParameters α) (c : CellCut α) : Motion α :=
  .cut ⟨some (Scalar.natural c.col * p.step), some (Scalar.natural c.row * p.step), some c.depth⟩
    (some p.cutFeed)

theorem filter_isCut_strokes (p : ToolpathParameters α) (depth : α) (ss : List Stroke) :
    (ss.map (p.strokeMove depth)).filter Motion.isCut =
      (ss.filterMap Stroke.cell?).map fun cell => p.cutAt cell.1 cell.2 depth := by
  induction ss with
  | nil => rfl
  | cons s ss ih =>
    rw [List.map_cons, List.filter_cons, List.filterMap_cons, ih]
    cases s <;> rfl

theorem filter_isCut_passes (p : ToolpathParameters α) (m : ActiveMask) (depths : List α)
    (first : Nat) :
    (depths.flatMap (p.passMoves m)).filter Motion.isCut =
      (m.cellCuts depths first).map p.cutMove := by
  induction depths generalizing first with
  | nil => rfl
  | cons depth depths ih =>
    rw [List.flatMap_cons, List.filter_append, ActiveMask.cellCuts_cons, List.map_append,
      ih (first + 1), passMoves, filter_isCut_strokes, ActiveMask.passCuts, List.map_map]
    rfl

theorem countP_isRapid_strokes (p : ToolpathParameters α) (depth : α) (ss : List Stroke) :
    (ss.map (p.strokeMove depth)).countP Motion.isRapid =
      ss.countP Stroke.isApproach + ss.countP Stroke.isRetract := by
  induction ss with
  | nil => rfl
  | cons s ss ih =>
    rw [List.map_cons, List.countP_cons, List.countP_cons, List.countP_cons, ih]
    cases s <;> simp [strokeMove, traverseTo, cutAt, lift, Motion.isRapid, Motion.kind,
      Motion.traverse, Motion.carve, Stroke.isApproach, Stroke.isRetract] <;> omega

theorem countP_isRapid_passMoves (p : ToolpathParameters α) (m : ActiveMask) (depth : α) :
    (p.passMoves m depth).countP Motion.isRapid = 2 * m.runCount := by
  rw [passMoves, countP_isRapid_strokes, m.countP_approach_strokes, m.countP_retract_strokes]
  omega

theorem countP_isRapid_passes (p : ToolpathParameters α) (m : ActiveMask) (depths : List α) :
    (depths.flatMap (p.passMoves m)).countP Motion.isRapid = 2 * depths.length * m.runCount := by
  induction depths with
  | nil => simp
  | cons depth depths ih =>
    rw [List.flatMap_cons, List.countP_append, ih, countP_isRapid_passMoves, List.length_cons,
      Nat.mul_add, Nat.add_mul]
    omega

end ToolpathParameters

/-! ### Cuts by their coordinates -/

section
variable {α : Type} [Scalar α] [DecidableEq α]

def Motion.depthAt? (x y : α) : Motion α → Option α
  | .cut ⟨some a, some b, some z⟩ _ => if a = x ∧ b = y then some z else none
  | _ => none

omit [Scalar α] in
theorem Motion.filterMap_depthAt (x y : α) (ms : List (Motion α)) :
    ms.filterMap (depthAt? x y) = (ms.filter isCut).filterMap (depthAt? x y) := by
  induction ms with
  | nil => rfl
  | cons m ms ih =>
    cases m with
    | rapid t f => exact ih
    | cut t f =>
      have hcut : isCut (.cut t f) = true := rfl
      rw [List.filter_cons_of_pos hcut, List.filterMap_cons, List.filterMap_cons, ih]

/-- Where no other cut cell has the coordinates of a cell, they tell its cuts from all others. -/
theorem ToolpathParameters.filterMap_depthAt_cuts (p : ToolpathParameters α) (row col : Nat)
    (cs : List (CellCut α))
    (h : ∀ c ∈ cs, p.place c.row = p.place row → p.place c.col = p.place col →
      c.row = row ∧ c.col = col) :
    (cs.map p.cutMove).filterMap (Motion.depthAt? (p.place col) (p.place row)) =
      (cs.filter fun c => c.row = row ∧ c.col = col).map CellCut.depth := by
  induction cs with
  | nil => rfl
  | cons c cs ih =>
    have hrest := ih fun d hd => h d (List.mem_cons_of_mem _ hd)
    have hc := h c List.mem_cons_self
    have hdepth : (p.cutMove c).depthAt? (p.place col) (p.place row) =
        if c.row = row ∧ c.col = col then some c.depth else none := by
      have hplaces : (p.place c.col = p.place col ∧ p.place c.row = p.place row) ↔
          (c.row = row ∧ c.col = col) :=
        ⟨fun hp => hc hp.2 hp.1, fun he => ⟨by rw [he.2], by rw [he.1]⟩⟩
      simp only [cutMove, Motion.depthAt?]
      exact if_congr hplaces rfl rfl
    rw [List.map_cons, List.filterMap_cons, hdepth, hrest]
    by_cases he : c.row = row ∧ c.col = col
    · rw [if_pos he, List.filter_cons_of_pos (by simpa using he)]
      rfl
    · rw [if_neg he, List.filter_cons_of_neg (by simpa using he)]

/-! ### Whole plans -/

/-- A plan cuts the active cells of a mask, pass by pass, at the given depths. -/
structure CoversMask (p : ToolpathParameters α) (mask : ActiveMask) (depths : List α)
    (plan : Plan α) : Prop where
  /-- The cuts of the plan are those made for the cells, in the same order. -/
  cuts : plan.motions.filter Motion.isCut = (mask.cellCuts depths).map p.cutMove
  /-- A cell gets every depth if it is active, and none if it is not. -/
  cells : ∀ row col,
    ((mask.cellCuts depths).filter fun c => c.row = row ∧ c.col = col).map CellCut.depth =
      if mask.active row col then depths else []
  /-- The cuts of a pass come before those of the next. -/
  order : ((mask.cellCuts depths).map CellCut.pass).Pairwise (· ≤ ·)
  /-- Each cut has the depth of its pass. -/
  depth : ∀ c ∈ mask.cellCuts depths, depths[c.pass]? = some c.depth
  /-- The same told by coordinates, where they tell the cell from every other active cell. -/
  places : ∀ row col,
    (∀ r c, mask.active r c = true → Scalar.natural r * p.step = Scalar.natural row * p.step →
      Scalar.natural c * p.step = Scalar.natural col * p.step → r = row ∧ c = col) →
    plan.motions.filterMap
        (Motion.depthAt? (Scalar.natural col * p.step) (Scalar.natural row * p.step)) =
      if mask.active row col then depths else []
  passes : plan.passes = depths.length
  cutCount : plan.cutCount = depths.length * mask.activeCount
  rapidCount : plan.rapidCount = 4 + 2 * depths.length * mask.runCount

namespace Generator

omit [DecidableEq α] in
theorem filter_isCut_planOfDepths (p : ToolpathParameters α) (time : String) (mask : ActiveMask)
    (total : α) (depths : List α) :
    (planOfDepths p time mask total depths).motions.filter Motion.isCut =
      (mask.cellCuts depths).map p.cutMove := by
  rw [motions_planOfDepths, List.filter_append, List.filter_append,
    p.filter_isCut_passes mask depths 0]
  exact List.append_nil _

omit [DecidableEq α] in
theorem rapidCount_planOfDepths (p : ToolpathParameters α) (time : String) (mask : ActiveMask)
    (total : α) (depths : List α) :
    (planOfDepths p time mask total depths).rapidCount =
      4 + 2 * depths.length * mask.runCount := by
  have hopen : (opening p).countP Motion.isRapid = 2 := rfl
  have hclose : (closing p).countP Motion.isRapid = 2 := rfl
  rw [Plan.rapidCount, motions_planOfDepths, List.countP_append, List.countP_append, hopen,
    hclose, p.countP_isRapid_passes]
  omega

theorem coversMask_planOfDepths (p : ToolpathParameters α) (time : String) {mask : ActiveMask}
    (hsize : mask.cells.size = mask.rows * mask.cols) (total : α) (depths : List α) :
    CoversMask p mask depths (planOfDepths p time mask total depths) where
  cuts := filter_isCut_planOfDepths p time mask total depths
  cells row col := mask.depths_of_cell depths row col 0
  order := (mask.pairwise_pass depths 0).1
  depth c hc := (ActiveMask.mem_cellCuts hc).1
  places row col hplaces := by
    have hcuts := p.filterMap_depthAt_cuts row col (mask.cellCuts depths) fun c hc =>
      hplaces c.row c.col (ActiveMask.mem_cellCuts hc).2
    rw [Motion.filterMap_depthAt, filter_isCut_planOfDepths]
    exact hcuts.trans (mask.depths_of_cell depths row col 0)
  passes := rfl
  cutCount := by
    rw [Plan.cutCount, List.countP_eq_length_filter, filter_isCut_planOfDepths, List.length_map,
      mask.length_cellCuts, mask.length_cutOrder hsize]
  rapidCount := rapidCount_planOfDepths p time mask total depths

/-- A plan of several passes cuts exactly the active cells, each at exactly the depths of the
passes and in their order, and rises twice in each pass for each run of active cells. -/
theorem multiPass_covers_mask {g : Generator α} {time : String} {rows cols : Nat}
    {cells : Array Bool} {mask : ActiveMask} {total : α} {plan : Plan α}
    (hmask : ActiveMask.new rows cols cells = (.ok mask : Except (ParameterError α) ActiveMask))
    (hplan : g.multiPass time mask total = .ok plan) :
    ∃ depths, passDepths total g.params.maxDepthPerPass = .ok depths ∧
      CoversMask g.params mask depths plan := by
  obtain ⟨rfl, hsize⟩ := ActiveMask.size_of_new hmask
  obtain ⟨depths, hd, rfl⟩ := multiPass_eq_ok hplan
  exact ⟨depths, hd, coversMask_planOfDepths g.params time hsize total depths⟩

theorem engravingPlan_covers_mask :
    ∃ depths, passDepths (-3) engraver.params.maxDepthPerPass = .ok depths ∧
      CoversMask engraver.params engraving depths engravingPlan := by
  have hmask : ActiveMask.new 2 4 engraving.cells =
      (.ok engraving : Except (ParameterError Float) ActiveMask) := by decide +kernel
  exact multiPass_covers_mask hmask multiPass_engraving

end Generator
end
end BasRelief
