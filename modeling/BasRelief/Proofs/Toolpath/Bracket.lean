import BasRelief.Proofs.Toolpath.Sections

/-!
# The bracket of a plan

Every plan sets the machine up and stops it in the same way, whatever it cuts, and it cuts only
while the spindle runs. Comments can stand anywhere, so this is told of the plan without them; what
a step does not share with a comment holds of the plan as it is.
-/

namespace BasRelief

namespace PlanStep
variable {α : Type}

def code? : PlanStep α → Option MachineCode
  | code c => some c
  | _ => none

def isCut : PlanStep α → Bool
  | motion m => m.isCut
  | _ => false

theorem filterMap_code_map_motion (ms : List (Motion α)) :
    (ms.map PlanStep.motion).filterMap PlanStep.code? = [] := by
  induction ms with
  | nil => rfl
  | cons m ms ih => exact ih

theorem code_not_mem_map_motion (c : MachineCode) (ms : List (Motion α)) :
    .code c ∉ ms.map PlanStep.motion := by
  intro h
  obtain ⟨m, _, hm⟩ := List.mem_map.mp h
  cases hm

/-- A step that is no comment is found among the steps without the comments. -/
theorem mem_filter_comment {s : PlanStep α} {steps : List (PlanStep α)}
    (hs : s.isComment = false) (h : s ∈ steps) : s ∈ steps.filter fun t => !t.isComment :=
  List.mem_filter.mpr ⟨h, by rw [hs]; rfl⟩

/-- Steps are split where their comments are left out: at a step that is no comment. -/
theorem split_of_filter {steps before after : List (PlanStep α)} {s : PlanStep α}
    (h : steps.filter (fun t => !t.isComment) = before ++ s :: after) :
    ∃ first rest, steps = first ++ s :: rest ∧
      first.filter (fun t => !t.isComment) = before ∧
      rest.filter (fun t => !t.isComment) = after := by
  obtain ⟨front, back, rfl, hfront, hback⟩ := List.filter_eq_append_iff.mp h
  obtain ⟨comments, rest, rfl, hcomments, _, hrest⟩ := List.filter_eq_cons_iff.mp hback
  refine ⟨front ++ comments, rest, by rw [List.append_assoc], ?_, hrest⟩
  rw [List.filter_append, hfront, List.filter_eq_nil_iff.mpr hcomments, List.append_nil]

end PlanStep

variable {α : Type}

/-- The spindle starts once, it stops once after that, and every cut is made in between. -/
structure RunsSpindle (steps before running after : List (PlanStep α)) : Prop where
  split : steps = before ++ .code .spindleOn :: (running ++ .code .spindleOff :: after)
  started_once : .code .spindleOn ∉ before ++ (running ++ after)
  stopped_once : .code .spindleOff ∉ before ++ (running ++ after)
  no_cut_outside : ∀ s ∈ before ++ after, s.isCut = false

/-- What stands around the moves of every plan made with the given parameters. -/
structure Bracketed [Scalar α] (p : ToolpathParameters α) (plan : Plan α) : Prop where
  steps : ∃ moves : List (Motion α), plan.steps.filter (fun s => !s.isComment) =
    [.code .unitsMillimeters, .code .absolutePositioning, .code .planeXY, .code .spindleOn,
      .motion (.rapid ⟨none, none, some p.safeZ⟩ (some p.rapidFeed)),
      .motion (.rapid ⟨some Scalar.zero, some Scalar.zero, none⟩ none)] ++
    moves.map .motion ++
    [.code .spindleOff, .motion (.rapid ⟨none, none, some p.safeZ⟩ none),
      .motion (.rapid ⟨some Scalar.zero, some Scalar.zero, none⟩ none), .code .programEnd]
  codes : plan.steps.filterMap PlanStep.code? =
    [.unitsMillimeters, .absolutePositioning, .planeXY, .spindleOn, .spindleOff, .programEnd]
  spindle : ∃ before running after, RunsSpindle plan.steps before running after
  last : plan.steps.getLast? = some (.code .programEnd)

namespace Generator
variable [Scalar α]

/-! ### From the steps without comments -/

theorem codes_of_filter {p : ToolpathParameters α} {moves : List (Motion α)}
    {steps : List (PlanStep α)}
    (h : steps.filter (fun s => !s.isComment) = bracket p moves) :
    steps.filterMap PlanStep.code? =
      [.unitsMillimeters, .absolutePositioning, .planeXY, .spindleOn, .spindleOff,
        .programEnd] := by
  have hfilter := PlanStep.filterMap_filter_comment (f := PlanStep.code?) (fun _ => rfl) steps
  rw [h, bracket, List.filterMap_append, List.filterMap_append,
    PlanStep.filterMap_code_map_motion] at hfilter
  exact hfilter.symm

theorem runsSpindle_of_filter {p : ToolpathParameters α} {moves : List (Motion α)}
    {steps : List (PlanStep α)}
    (h : steps.filter (fun s => !s.isComment) = bracket p moves) :
    ∃ before running after, RunsSpindle steps before running after := by
  have hstart : bracket p moves =
      [.code .unitsMillimeters, .code .absolutePositioning, .code .planeXY] ++
        .code .spindleOn :: ((opening p ++ moves).map .motion ++ shutdown p) := by
    rw [bracket, List.map_append, List.append_assoc, List.append_assoc]
    rfl
  rw [hstart] at h
  obtain ⟨before, rest, rfl, hbefore, hrest⟩ := PlanStep.split_of_filter h
  obtain ⟨running, after, rfl, hrunning, hafter⟩ := PlanStep.split_of_filter hrest
  -- a code that stood anywhere else would stand among the steps without comments
  have honce (c : MachineCode)
      (hshutdown : .code c ∉ ([.motion p.lift, .motion toOrigin, .code .programEnd] :
        List (PlanStep α)))
      (hsetup : .code c ∉ ([.code .unitsMillimeters, .code .absolutePositioning,
        .code .planeXY] : List (PlanStep α))) :
      .code c ∉ before ++ (running ++ after) := by
    intro hmem
    obtain hmem | hmem := List.mem_append.mp hmem
    · exact hsetup (hbefore ▸ PlanStep.mem_filter_comment rfl hmem)
    obtain hmem | hmem := List.mem_append.mp hmem
    · exact PlanStep.code_not_mem_map_motion c _
        (hrunning ▸ PlanStep.mem_filter_comment rfl hmem)
    · exact hshutdown (hafter ▸ PlanStep.mem_filter_comment rfl hmem)
  refine ⟨before, running, after, rfl, honce .spindleOn (by simp) (by simp),
    honce .spindleOff (by simp) (by simp), ?_⟩
  intro s hs
  by_contra hcut
  have hcut : s.isCut = true := Bool.of_not_eq_false hcut
  have hcomment : s.isComment = false := by
    cases s with
    | comment text => cases hcut
    | code c => rfl
    | motion m => rfl
  obtain hs | hs := List.mem_append.mp hs
  · have hmem := hbefore ▸ PlanStep.mem_filter_comment hcomment hs
    simp only [List.mem_cons, List.not_mem_nil, or_false] at hmem
    obtain rfl | rfl | rfl := hmem <;> cases hcut
  · have hmem := hafter ▸ PlanStep.mem_filter_comment hcomment hs
    simp only [List.mem_cons, List.not_mem_nil, or_false] at hmem
    obtain rfl | rfl | rfl := hmem <;> cases hcut

/-! ### Plans -/

theorem getLast?_footer (p : ToolpathParameters α) (steps : List (PlanStep α)) :
    (steps ++ footer p).getLast? = some (.code .programEnd) := by
  rw [List.getLast?_append]
  rfl

theorem Makes.getLast? {g : Generator α} {time : String} {plan : Plan α}
    (h : g.Makes time plan) : plan.steps.getLast? = some (.code .programEnd) := by
  cases h with
  | single grid => exact getLast?_footer g.params _
  | multi h =>
    obtain ⟨ds, _, rfl⟩ := multiPass_eq_ok h
    exact getLast?_footer g.params _

/-- Without its comments every plan is the same set-up, moves, and the same shutdown. The six codes
of these are all the codes of the plan, every cut stands between the start and the stop of the
spindle, and the end of the program is the last step. -/
theorem plans_bracketed {g : Generator α} {time : String} {plan : Plan α}
    (h : g.Makes time plan) : Bracketed g.params plan := by
  obtain ⟨moves, hfilter⟩ := h.bracket
  exact ⟨⟨moves, hfilter⟩, codes_of_filter hfilter, runsSpindle_of_filter hfilter, h.getLast?⟩

theorem engravingPlan_bracketed : Bracketed engraver.params engravingPlan :=
  plans_bracketed (.multi multiPass_engraving)

end Generator
end BasRelief
