import BasRelief.Job.Basic

/-!
# The stamp of a plan

The second comment of a plan names the time at which it was made. A job that is run at another
time comes to the same outcome but for this stamp.
-/

namespace BasRelief

/-! ### Plans without a stamp -/

namespace PlanStep
variable {α : Type}

def isStamp (text : String) : Bool := "Generated: ".toList.isPrefixOf text.toList

/-- The step without the time that a stamp names. -/
def undated : PlanStep α → PlanStep α
  | comment text => if isStamp text then comment "Generated: " else comment text
  | step => step

theorem undated_stamp (time : String) :
    (comment ("Generated: " ++ time) : PlanStep α).undated = comment "Generated: " := by
  have hstamp : isStamp ("Generated: " ++ time) = true := by
    rw [isStamp, String.toList_append, List.isPrefixOf_iff_prefix]
    exact List.prefix_append _ _
  rw [undated, if_pos hstamp]

end PlanStep

def Plan.undated {α : Type} (p : Plan α) : Plan α := { p with steps := p.steps.map .undated }

namespace Generator
variable {α : Type} [Scalar α]

theorem header_undated (p : ToolpathParameters α) (time time' title : String) (rows cols : Nat) :
    (header p time title rows cols).map PlanStep.undated =
      (header p time' title rows cols).map PlanStep.undated := by
  simp only [header, titleLines, List.map_append, List.map_cons, PlanStep.undated_stamp]

theorem singlePass_undated (g : Generator α) (time time' : String) (grid : HeightGrid α) :
    (g.singlePass time grid).undated = (g.singlePass time' grid).undated := by
  simp only [Plan.undated, singlePass, List.map_append, header_undated g.params time time']

theorem planOfDepths_undated (p : ToolpathParameters α) (time time' : String) (mask : ActiveMask)
    (total : α) (depths : List α) :
    (planOfDepths p time mask total depths).undated =
      (planOfDepths p time' mask total depths).undated := by
  simp only [Plan.undated, planOfDepths, List.map_append, header_undated p time time']

end Generator

/-! ### Making a plan at two times -/

/-- Two results are the same failure, or plans that differ in their stamps only. -/
inductive SameUndated {ε : Type} : Except ε (Plan Float) → Except ε (Plan Float) → Prop where
  | error (e : ε) : SameUndated (.error e) (.error e)
  | ok {plan plan' : Plan Float} (h : plan.undated = plan'.undated) :
      SameUndated (.ok plan) (.ok plan')

theorem SameUndated.mapError {ε ε' : Type} {r r' : Except ε (Plan Float)} (h : SameUndated r r')
    (f : ε → ε') : SameUndated (r.mapError f) (r'.mapError f) := by
  cases h with
  | error e => exact .error (f e)
  | ok h => exact .ok h

theorem Generator.multiPass_undated (g : Generator Float) (time time' : String)
    (mask : ActiveMask) (total : Float) :
    SameUndated (g.multiPass time mask total) (g.multiPass time' mask total) := by
  unfold multiPass
  cases passDepths total g.params.maxDepthPerPass with
  | error e => exact .error e
  | ok depths => exact .ok (planOfDepths_undated g.params time time' mask total depths)

namespace Pipeline

theorem generate_undated (lib : ImageLibrary) (p : Pipeline) (time time' : String)
    (mode : GenerationMode) :
    SameUndated (p.generate lib time mode) (p.generate lib time' mode) := by
  unfold generate
  cases (Generator.ofParameters p.settings.toolpath).mapError GenerationError.parameter with
  | error e => exact .error e
  | ok g =>
    have hgrid (mode : GenerationMode) :
        SameUndated ((p.heightGrid lib mode).bind fun grid => pure (g.singlePass time grid))
          ((p.heightGrid lib mode).bind fun grid => pure (g.singlePass time' grid)) := by
      cases p.heightGrid lib mode with
      | error e => exact .error e
      | ok grid => exact .ok (g.singlePass_undated time time' grid)
    cases mode with
    | color => exact hgrid .color
    | grayscale maxDepth enhancement => exact hgrid (.grayscale maxDepth enhancement)
    | binary totalDepth =>
      dsimp only [bind, Except.bind]
      cases p.activeMask lib with
      | error e => exact .error e
      | ok mask =>
        exact (g.multiPass_undated time time' mask totalDepth).mapError GenerationError.ofPasses

theorem generateFromFile_undated (lib : ImageLibrary) (settings : GeneratorSettings)
    (time time' : String) (d : Disk) (path : String) (mode : GenerationMode) (size : TargetSize Float) :
    SameUndated (generateFromFile lib settings time d path mode size)
      (generateFromFile lib settings time' d path mode size) := by
  unfold generateFromFile
  cases (Image.load lib d path).mapError GenerationError.image with
  | error e => exact .error e
  | ok image => exact generate_undated lib _ time time' mode

end Pipeline

/-! ### Running a job at two times -/

namespace Outcome

/-- The outcome without the stamp of its plan. -/
def undated : Outcome → Outcome
  | generated plan output => generated plan.undated output
  | outcome => outcome

theorem eq_generated_of_undated {outcome : Outcome} {plan : Plan Float} {output : Option String}
    (h : (generated plan output).undated = outcome.undated) :
    ∃ plan', outcome = .generated plan' output ∧ plan.undated = plan'.undated := by
  cases outcome with
  | generated plan' output' =>
    obtain ⟨hplan, houtput⟩ := generated.inj h
    exact ⟨plan', by rw [houtput], hplan⟩
  | analyzed report => cases h
  | failed e => cases h

end Outcome

/-- The file that a plan is written to. -/
def Plan.file (plan : Plan Float) : Entry :=
  .file (.octets (Text.encode (Gcode.program plan).toList))

namespace Job

theorem deliver_of_target {d : Disk} {path : String} {place : Place} {content : Option Content}
    (h : d.target path = .ok (place, content)) (plan : Plan Float) :
    deliver d plan (some path) = (.generated plan (some path), d.put place plan.file) := by
  rw [deliver, Disk.writeText, Disk.write, h]
  rfl

theorem deliver_of_no_target {d : Disk} {path : String} {e : DiskError}
    (h : d.target path = .error e) (plan : Plan Float) :
    deliver d plan (some path) = (.failed (.unwritten path e), d) := by
  rw [deliver, Disk.writeText, Disk.write, h]
  rfl

theorem deliver_undated (d : Disk) {plan plan' : Plan Float} (h : plan.undated = plan'.undated)
    (output : Option String) :
    (deliver d plan output).1.undated = (deliver d plan' output).1.undated := by
  cases output with
  | none => exact congrArg (Outcome.generated · none) h
  | some path =>
    cases htarget : d.target path with
    | error e => rw [deliver_of_no_target htarget, deliver_of_no_target htarget]
    | ok found =>
      rw [deliver_of_target htarget, deliver_of_target htarget]
      exact congrArg (Outcome.generated · (some path)) h

/-- The time of a run shows in the stamp of its plan and in nothing else. -/
theorem run_undated (lib : ImageLibrary) (config : Config) (time time' : String) (d : Disk)
    (job : Job) :
    (job.run lib config time d).1.undated = (job.run lib config time' d).1.undated := by
  cases job with
  | analyze program => rfl
  | generate image output mode size =>
    have hsame :=
      Pipeline.generateFromFile_undated lib config.generator time time' d image mode size
    rw [run, run]
    generalize Pipeline.generateFromFile lib config.generator time d image mode size = r at hsame ⊢
    generalize Pipeline.generateFromFile lib config.generator time' d image mode size = r' at hsame ⊢
    cases hsame with
    | error e => rfl
    | ok h => exact deliver_undated d h output

end Job
end BasRelief
