import BasRelief.Proofs.Toolpath.Sections
import BasRelief.Proofs.Toolpath.StrokePath

/-!
# Clearance

No rapid crosses the part below the safe height. The invariant is that the tool is raised between
any two sections of a plan: the opening raises it from wherever it is, every pass starts and ends
with it raised, and the closing raises it once more before it goes back to the origin.
-/

namespace BasRelief
open Motion

namespace ToolpathParameters
variable {α : Type} [Scalar α]

/-- A pass that starts at the safe height ends there, with clear legs and cuts of the two kinds. -/
theorem passMoves_legs (p : ToolpathParameters α) (m : ActiveMask) (depth : α) {q : Position α}
    (hq : q.z = p.safeZ) :
    (replay q (p.passMoves m depth)).z = p.safeZ ∧
      ∀ l ∈ legs q (p.passMoves m depth),
        l.Clear p.safeZ ∧ (l.motion.isCut = true → CutLeg p m depth l) := by
  have hraised : Tool.raised.At p depth q := hq
  exact m.strokePath_strokes.legs hraised

theorem passes_legs (p : ToolpathParameters α) (m : ActiveMask) (depths : List α)
    {q : Position α} (hq : q.z = p.safeZ) :
    (replay q (depths.flatMap (p.passMoves m))).z = p.safeZ ∧
      ∀ l ∈ legs q (depths.flatMap (p.passMoves m)),
        l.Clear p.safeZ ∧ (l.motion.isCut = true → ∃ depth ∈ depths, CutLeg p m depth l) := by
  induction depths generalizing q with
  | nil => exact ⟨hq, fun l hl => by cases hl⟩
  | cons depth depths ih =>
    obtain ⟨hend, hlegs⟩ := p.passMoves_legs m depth hq
    obtain ⟨hlast, hrest⟩ := ih hend
    rw [List.flatMap_cons, replay_append]
    refine ⟨hlast, forall_legs_append (fun l hl => ?_) (fun l hl => ?_)⟩
    · obtain ⟨hclear, hcut⟩ := hlegs l hl
      exact ⟨hclear, fun hc => ⟨depth, List.mem_cons_self, hcut hc⟩⟩
    · obtain ⟨hclear, hcut⟩ := hrest l hl
      refine ⟨hclear, fun hc => ?_⟩
      obtain ⟨d, hd, hleg⟩ := hcut hc
      exact ⟨d, List.mem_cons_of_mem _ hd, hleg⟩

/-- A surface scan has no rapid that names X or Y: it cuts, and it lifts between rows. -/
theorem surfaceMoves_no_traverse (p : ToolpathParameters α) (g : HeightGrid α) :
    ∀ m ∈ p.surfaceMoves g, m.isRapid = true → m.target.namesPlane = false := by
  intro m hm hr
  obtain ⟨row, _, hm⟩ := List.mem_flatMap.1 hm
  rcases List.mem_append.1 hm with hm | hm
  · obtain ⟨col, _, hm⟩ := List.mem_filterMap.1 hm
    obtain ⟨height, _, rfl⟩ := Option.map_eq_some_iff.1 hm
    cases hr
  · split at hm
    · rw [List.mem_singleton.1 hm]
      rfl
    · cases hm

end ToolpathParameters

namespace Generator
variable {α : Type} [Scalar α]

theorem replay_opening (p : ToolpathParameters α) (start : Position α) :
    replay start (opening p) = ⟨Scalar.zero, Scalar.zero, p.safeZ⟩ := rfl

theorem replay_closing (p : ToolpathParameters α) (start : Position α) :
    replay start (closing p) = ⟨Scalar.zero, Scalar.zero, p.safeZ⟩ := rfl

theorem clear_lift_travel (p : ToolpathParameters α) (feed : Option α) (start : Position α) :
    ∀ l ∈ legs start [.rapid (.zOnly p.safeZ) feed, toOrigin], l.Clear p.safeZ := by
  intro l hl
  rcases List.mem_cons.1 hl with rfl | hl
  · intro _ hp
    cases hp
  · rw [List.mem_singleton.1 hl]
    exact fun _ _ => ⟨rfl, rfl⟩

/-- Moves between opening and closing, clear from every position at the safe height, make a clear
plan that ends above the origin. -/
theorem clear_sections (p : ToolpathParameters α) (start : Position α) (ms : List (Motion α))
    (h : ∀ q : Position α, q.z = p.safeZ → ∀ l ∈ legs q ms, l.Clear p.safeZ) :
    (∀ l ∈ legs start (opening p ++ ms ++ closing p), l.Clear p.safeZ) ∧
      replay start (opening p ++ ms ++ closing p) = ⟨Scalar.zero, Scalar.zero, p.safeZ⟩ := by
  have hopen : ∀ l ∈ legs start (opening p), l.Clear p.safeZ := clear_lift_travel p _ start
  have hmid : ∀ l ∈ legs (replay start (opening p)) ms, l.Clear p.safeZ := by
    rw [replay_opening]
    exact h _ rfl
  have hclose : ∀ l ∈ legs (replay start (opening p ++ ms)) (closing p), l.Clear p.safeZ :=
    clear_lift_travel p _ _
  refine ⟨forall_legs_append (forall_legs_append hopen hmid) hclose, ?_⟩
  rw [replay_append, replay_closing]

theorem Makes.clear {g : Generator α} {time : String} {plan : Plan α} (h : g.Makes time plan)
    (start : Position α) :
    (∀ l ∈ legs start plan.motions, l.Clear g.params.safeZ) ∧
      replay start plan.motions = ⟨Scalar.zero, Scalar.zero, g.params.safeZ⟩ := by
  cases h with
  | single grid =>
    rw [motions_singlePass]
    apply clear_sections
    intro q _
    exact clear_of_no_traverse (g.params.surfaceMoves_no_traverse grid) q
  | multi hplan =>
    obtain ⟨ds, _, rfl⟩ := multiPass_eq_ok hplan
    rw [motions_planOfDepths]
    apply clear_sections
    intro q hq
    exact fun l hl => ((g.params.passes_legs _ ds hq).2 l hl).1

/-- Every cut of a replay is of one of the two kinds at the depth of a pass. No cut lies outside
the passes, and each pass, replayed from where the plan has left the machine before it, cuts at its
own depth. -/
structure CutsInRows (p : ToolpathParameters α) (mask : ActiveMask) (depths : List α)
    (start : Position α) (plan : Plan α) : Prop where
  cuts : ∀ l ∈ legs start plan.motions, l.motion.isCut = true →
    ∃ depth ∈ depths, CutLeg p mask depth l
  sections : plan.motions = opening p ++ depths.flatMap (p.passMoves mask) ++ closing p
  outside : ∀ m ∈ opening p ++ closing p, m.isCut = false
  passes : ∀ done depth rest, depths = done ++ depth :: rest →
    ∀ l ∈ legs (replay start (opening p ++ done.flatMap (p.passMoves mask)))
      (p.passMoves mask depth), l.motion.isCut = true → CutLeg p mask depth l

theorem isCut_of_mem_opening_closing (p : ToolpathParameters α) :
    ∀ m ∈ opening p ++ closing p, m.isCut = false := by
  intro m hm
  simp only [opening, closing, List.cons_append, List.nil_append, List.mem_cons,
    List.not_mem_nil, or_false] at hm
  rcases hm with rfl | rfl | rfl | rfl <;> rfl

theorem cutsInRows_planOfDepths (p : ToolpathParameters α) (time : String) (mask : ActiveMask)
    (total : α) (depths : List α) (start : Position α) :
    CutsInRows p mask depths start (planOfDepths p time mask total depths) := by
  have houtside := isCut_of_mem_opening_closing p
  have hnone {q : Position α} {ms : List (Motion α)} (hms : ∀ m ∈ ms, m ∈ opening p ++ closing p) :
      ∀ l ∈ legs q ms, l.motion.isCut = true → ∃ depth ∈ depths, CutLeg p mask depth l := by
    intro l hl hcut
    rw [houtside l.motion (hms l.motion (motion_mem_of_mem_legs hl))] at hcut
    cases hcut
  refine ⟨?cuts, motions_planOfDepths p time mask total depths, houtside, ?passes⟩
  case cuts =>
    have hmid : ∀ l ∈ legs (replay start (opening p)) (depths.flatMap (p.passMoves mask)),
        l.motion.isCut = true → ∃ depth ∈ depths, CutLeg p mask depth l :=
      fun l hl => ((p.passes_legs mask depths (replay_opening p start ▸ rfl)).2 l hl).2
    rw [motions_planOfDepths]
    exact forall_legs_append
      (forall_legs_append (hnone fun m hm => List.mem_append_left _ hm) hmid)
      (hnone fun m hm => List.mem_append_right _ hm)
  case passes =>
    intro done depth rest _ l hl hcut
    have hsafe : (replay start (opening p ++ done.flatMap (p.passMoves mask))).z = p.safeZ := by
      rw [replay_append, replay_opening]
      exact (p.passes_legs mask done rfl).1
    exact ((p.passMoves_legs mask depth hsafe).2 l hl).2 hcut

/-- From any position, every rapid of a plan that names X or Y starts and ends at the safe height
and the plan ends above the origin; in a plan of several passes every cut is a plunge at an active
cell or a move to the active cell beside it at the depth of its pass. -/
theorem rapids_clear_cuts_in_rows (g : Generator α) (time : String) (start : Position α) :
    (∀ plan, g.Makes time plan →
      (∀ l ∈ legs start plan.motions, l.Clear g.params.safeZ) ∧
        replay start plan.motions = ⟨Scalar.zero, Scalar.zero, g.params.safeZ⟩) ∧
    ∀ mask total plan, g.multiPass time mask total = .ok plan →
      ∃ depths, passDepths total g.params.maxDepthPerPass = .ok depths ∧
        CutsInRows g.params mask depths start plan := by
  refine ⟨fun plan h => h.clear start, ?_⟩
  intro mask total plan hplan
  obtain ⟨depths, hd, rfl⟩ := multiPass_eq_ok hplan
  exact ⟨depths, hd, cutsInRows_planOfDepths g.params time mask total depths start⟩

theorem engraving_clear_cuts_in_rows :
    (∀ l ∈ legs ⟨7, 7, -1⟩ engravingPlan.motions, l.Clear 5) ∧
      replay ⟨7, 7, -1⟩ engravingPlan.motions = ⟨0, 0, 5⟩ ∧
      ∃ depths, passDepths (-3 : Float) 2 = .ok depths ∧
        CutsInRows engraver.params engraving depths ⟨7, 7, -1⟩ engravingPlan := by
  obtain ⟨hclear, hcuts⟩ :=
    rapids_clear_cuts_in_rows engraver "2026-01-01 00:00:00 UTC" ⟨7, 7, -1⟩
  obtain ⟨hlegs, hend⟩ := hclear engravingPlan (.multi multiPass_engraving)
  exact ⟨hlegs, hend, hcuts engraving (-3) engravingPlan multiPass_engraving⟩

end Generator
end BasRelief
