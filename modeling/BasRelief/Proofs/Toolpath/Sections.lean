import BasRelief.Proofs.Toolpath.Replay
import BasRelief.Toolpath.Generator
import Mathlib.Data.List.Chain

/-!
# Sections of a plan

Without its comments a plan is the codes and moves that set up the machine, the moves of its
passes, and the codes and moves that stop it. Both modes share what stands around the passes.
-/

namespace BasRelief

namespace PlanStep
variable {α : Type}

theorem filterMap_motion_map (ms : List (Motion α)) :
    (ms.map PlanStep.motion).filterMap PlanStep.motion? = ms := by
  induction ms with
  | nil => rfl
  | cons m ms ih => simp only [List.map_cons, List.filterMap_cons, PlanStep.motion?, ih]

theorem filter_map_comment (texts : List String) :
    (texts.map (PlanStep.comment : String → PlanStep α)).filter (fun s => !s.isComment) = [] := by
  induction texts with
  | nil => rfl
  | cons t ts ih => exact ih

theorem filter_map_motion (ms : List (Motion α)) :
    (ms.map PlanStep.motion).filter (fun s => !s.isComment) = ms.map .motion := by
  induction ms with
  | nil => rfl
  | cons m ms ih => exact congrArg (PlanStep.motion m :: ·) ih

/-- What is made of the steps, but of no comment, is made of the steps without the comments. -/
theorem filterMap_filter_comment {β : Type} {f : PlanStep α → Option β}
    (h : ∀ text, f (.comment text) = none) (steps : List (PlanStep α)) :
    (steps.filter fun s => !s.isComment).filterMap f = steps.filterMap f := by
  induction steps with
  | nil => rfl
  | cons s steps ih =>
    cases s with
    | comment text =>
      rw [List.filterMap_cons, h text]
      exact ih
    | code c =>
      show List.filterMap f (.code c :: _) = _
      rw [List.filterMap_cons, List.filterMap_cons, ih]
    | motion m =>
      show List.filterMap f (.motion m :: _) = _
      rw [List.filterMap_cons, List.filterMap_cons, ih]

end PlanStep

namespace Generator
variable {α : Type} [Scalar α]

def opening (p : ToolpathParameters α) : List (Motion α) :=
  [.rapid (.zOnly p.safeZ) (some p.rapidFeed), toOrigin]

def closing (p : ToolpathParameters α) : List (Motion α) := [p.lift, toOrigin]

def shutdown (p : ToolpathParameters α) : List (PlanStep α) :=
  [.code .spindleOff, .motion p.lift, .motion toOrigin, .code .programEnd]

def bracket (p : ToolpathParameters α) (cuts : List (Motion α)) : List (PlanStep α) :=
  setup p ++ cuts.map .motion ++ shutdown p

/-- The plans that a generator makes at a given time, in either mode. -/
inductive Makes (g : Generator α) (time : String) : Plan α → Prop where
  | single (grid : HeightGrid α) : Makes g time (g.singlePass time grid)
  | multi {mask : ActiveMask} {total : α} {plan : Plan α}
      (h : g.multiPass time mask total = .ok plan) : Makes g time plan

/-! ### Plans without their comments -/

theorem filter_header (p : ToolpathParameters α) (time title : String) (rows cols : Nat) :
    (header p time title rows cols).filter (fun s => !s.isComment) = setup p := by
  rw [header, List.filter_append, PlanStep.filter_map_comment]
  rfl

theorem filter_passSteps (p : ToolpathParameters α) (mask : ActiveMask) (count : Nat) (depth : α)
    (index : Nat) :
    (passSteps p mask count depth index).filter (fun s => !s.isComment) =
      (p.passMoves mask depth).map .motion := by
  rw [← PlanStep.filter_map_motion]
  rfl

theorem filter_passes (p : ToolpathParameters α) (mask : ActiveMask) (count : Nat) (ds : List α)
    (k : Nat) :
    ((ds.zipIdx k).flatMap fun (d, i) => passSteps p mask count d i).filter
        (fun s => !s.isComment) = (ds.flatMap (p.passMoves mask)).map .motion := by
  induction ds generalizing k with
  | nil => rfl
  | cons d ds ih =>
    simp only [List.zipIdx_cons, List.flatMap_cons, List.filter_append, filter_passSteps, ih,
      List.map_append]

theorem filter_singlePass (g : Generator α) (time : String) (grid : HeightGrid α) :
    (g.singlePass time grid).steps.filter (fun s => !s.isComment) =
      bracket g.params (g.params.surfaceMoves grid) := by
  simp only [singlePass, bracket, List.filter_append, filter_header, PlanStep.filter_map_motion,
    List.append_assoc]
  rfl

theorem filter_planOfDepths (p : ToolpathParameters α) (time : String) (mask : ActiveMask)
    (total : α) (depths : List α) :
    (planOfDepths p time mask total depths).steps.filter (fun s => !s.isComment) =
      bracket p (depths.flatMap (p.passMoves mask)) := by
  simp only [planOfDepths, bracket, List.filter_append, filter_header, filter_passes,
    List.append_assoc]
  rfl

/-! ### Moves -/

theorem motions_of_filter {p : ToolpathParameters α} {cuts : List (Motion α)} {plan : Plan α}
    (h : plan.steps.filter (fun s => !s.isComment) = bracket p cuts) :
    plan.motions = opening p ++ cuts ++ closing p := by
  have hfilter := PlanStep.filterMap_filter_comment (f := PlanStep.motion?) (fun _ => rfl)
    plan.steps
  rw [h, bracket, List.filterMap_append, List.filterMap_append, PlanStep.filterMap_motion_map]
    at hfilter
  exact hfilter.symm

theorem motions_singlePass (g : Generator α) (time : String) (grid : HeightGrid α) :
    (g.singlePass time grid).motions =
      opening g.params ++ g.params.surfaceMoves grid ++ closing g.params :=
  motions_of_filter (filter_singlePass g time grid)

theorem motions_planOfDepths (p : ToolpathParameters α) (time : String) (mask : ActiveMask)
    (total : α) (depths : List α) :
    (planOfDepths p time mask total depths).motions =
      opening p ++ depths.flatMap (p.passMoves mask) ++ closing p :=
  motions_of_filter (filter_planOfDepths p time mask total depths)

/-! ### What a plan of several passes is -/

theorem multiPass_eq_ok {g : Generator α} {time : String} {mask : ActiveMask} {total : α}
    {plan : Plan α} (h : g.multiPass time mask total = .ok plan) :
    ∃ ds, passDepths total g.params.maxDepthPerPass = .ok ds ∧
      plan = planOfDepths g.params time mask total ds := by
  unfold multiPass at h
  cases hd : passDepths total g.params.maxDepthPerPass with
  | error e =>
    rw [hd] at h
    cases h
  | ok ds =>
    rw [hd] at h
    exact ⟨ds, rfl, (Except.ok.inj h).symm⟩

/-- Between the codes of the set-up and those of the shutdown a plan has nothing but moves. -/
theorem Makes.bracket {g : Generator α} {time : String} {plan : Plan α} (h : g.Makes time plan) :
    ∃ cuts : List (Motion α),
      plan.steps.filter (fun s => !s.isComment) = Generator.bracket g.params cuts := by
  cases h with
  | single grid => exact ⟨_, filter_singlePass g time grid⟩
  | multi h =>
    obtain ⟨ds, _, rfl⟩ := multiPass_eq_ok h
    exact ⟨_, filter_planOfDepths g.params time _ _ ds⟩

/-! ### A small engraving -/

def engraver : Generator Float where
  params :=
    { step := 1, safeZ := 5, rapidFeed := 3000, cutFeed := 1500, maxDepthPerPass := 2,
      toolDiameter := 3 }
  accepted := by decide +kernel

/-- Two rows with three runs: `##.#` and `.##.`. -/
def engraving : ActiveMask := ⟨2, 4, #[true, true, false, true, false, true, true, false]⟩

def engravingPlan : Plan Float :=
  planOfDepths engraver.params "2026-01-01 00:00:00 UTC" engraving (-3) [-2, -3]

theorem multiPass_engraving :
    engraver.multiPass "2026-01-01 00:00:00 UTC" engraving (-3) = .ok engravingPlan := by
  have hd : passDepths (-3 : Float) engraver.params.maxDepthPerPass = .ok [-2, -3] := by
    decide +kernel
  rw [multiPass, hd]
  rfl

end Generator
end BasRelief
