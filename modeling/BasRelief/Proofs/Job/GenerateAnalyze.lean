import BasRelief.Image.Standard
import BasRelief.Job.Basic
import BasRelief.Proofs.Analysis.Generated
import BasRelief.Proofs.Analysis.TextFile
import BasRelief.Proofs.Disk.ReadBack

/-!
# From generation to analysis

Every plan that a pipeline gives is one that a generator makes. A job that writes such a plan to a
file leaves there its text, and a job that analyzes the file reports what the plan holds.
-/

namespace BasRelief

namespace Pipeline

theorem makes_of_generate {lib : ImageLibrary} {p : Pipeline} {time : String}
    {mode : GenerationMode} {plan : Plan Float} (h : p.generate lib time mode = .ok plan) :
    ∃ g : Generator Float, g.Makes time plan := by
  unfold generate at h
  cases hg : (Generator.ofParameters p.settings.toolpath).mapError GenerationError.parameter with
  | error e =>
    rw [hg] at h
    cases h
  | ok g =>
    rw [hg] at h
    have hgrid {mode : GenerationMode} (h : (p.heightGrid lib mode).bind (fun grid =>
        pure (g.singlePass time grid)) = .ok plan) : g.Makes time plan := by
      cases hheight : p.heightGrid lib mode with
      | error e =>
        rw [hheight] at h
        cases h
      | ok grid =>
        rw [hheight] at h
        cases h
        exact .single grid
    refine ⟨g, ?_⟩
    cases mode with
    | color => exact hgrid h
    | grayscale maxDepth enhancement => exact hgrid h
    | binary totalDepth =>
      dsimp only [bind, Except.bind] at h
      cases hmask : p.activeMask lib with
      | error e =>
        rw [hmask] at h
        cases h
      | ok mask =>
        rw [hmask] at h
        dsimp only at h
        cases hplan : g.multiPass time mask totalDepth with
        | error e =>
          rw [hplan] at h
          cases h
        | ok made =>
          rw [hplan] at h
          cases h
          exact .multi hplan

theorem makes_of_generateFromFile {lib : ImageLibrary} {settings : GeneratorSettings}
    {time : String} {d : Disk} {path : String} {mode : GenerationMode} {size : TargetSize Float}
    {plan : Plan Float}
    (h : generateFromFile lib settings time d path mode size = .ok plan) :
    ∃ g : Generator Float, g.Makes time plan := by
  unfold generateFromFile at h
  cases himage : (Image.load lib d path).mapError GenerationError.image with
  | error e =>
    rw [himage] at h
    cases h
  | ok image =>
    rw [himage] at h
    exact makes_of_generate h

end Pipeline

namespace Job

/-- A job that generates to a file made its plan and wrote the text of it. -/
theorem generated_eq {lib : ImageLibrary} {config : Config} {time image path : String}
    {mode : GenerationMode} {size : TargetSize Float} {d d' : Disk} {plan : Plan Float}
    {output : Option String}
    (h : (generate image (some path) mode size).run lib config time d =
      (.generated plan output, d')) :
    (∃ g : Generator Float, g.Makes time plan) ∧
      d.writeText path (Gcode.program plan).toList = .ok d' := by
  unfold run at h
  cases hplan : Pipeline.generateFromFile lib config.generator time d image mode size with
  | error e =>
    simp only [hplan] at h
    cases h
  | ok made =>
    simp only [hplan, deliver] at h
    cases hwrite : d.writeText path (Gcode.program made).toList with
    | error e =>
      simp only [hwrite] at h
      cases h
    | ok written =>
      simp only [hwrite] at h
      cases h
      exact ⟨Pipeline.makes_of_generateFromFile hplan, hwrite⟩

theorem run_analyze_of_file {d : Disk} {path : String} {cs : List Char}
    (h : d.file? path = some (.octets (Text.encode cs))) (lib : ImageLibrary) (config : Config)
    (time : String) : (analyze path).run lib config time d =
      (.analyzed (analyzeText config.analyzer.limits cs), d) := by
  have hreport : analyzeFile config.analyzer.limits d path =
      .ok (analyzeText config.analyzer.limits cs) := by
    rw [analyzeFile, ProgramFile.open?, Disk.find_of_file? h]
    exact ProgramFile.analyze_encode config.analyzer.limits path cs
  rw [run, hreport]

end Job

/-- The analysis of a generated program counts its plan: of the text of every plan, and of the file
to which a job wrote it, as long as the file stays what it is. -/
theorem analysis_counts_generated {time : String} (htime : Text.IsLine time.toList) :
    (∀ (g : Generator Float) (plan : Plan Float), g.Makes time plan →
      ∀ limits, (analyzeText limits (Gcode.program plan).toList).Counts plan) ∧
    (∀ (lib : ImageLibrary) (config : Config) (image path : String) (mode : GenerationMode)
        (size : TargetSize Float) (d d' : Disk) (plan : Plan Float) (output : Option String),
      (Job.generate image (some path) mode size).run lib config time d =
          (.generated plan output, d') →
      ∀ (lib' : ImageLibrary) (config' : Config) (time' : String) (d'' : Disk),
        d''.file? path = d'.file? path →
        ∃ report, (Job.analyze path).run lib' config' time' d'' = (.analyzed report, d'') ∧
          report.Counts plan) := by
  refine ⟨?text, ?job⟩
  case text =>
    intro g plan hmakes limits
    exact hmakes.report_counts htime limits
  case job =>
    intro lib config image path mode size d d' plan output hrun lib' config' time' d'' hsame
    obtain ⟨⟨g, hmakes⟩, hwrite⟩ := Job.generated_eq hrun
    have hfile := Disk.file?_of_write hwrite
    have hrun' := Job.run_analyze_of_file (hsame.trans hfile) lib' config' time'
    exact ⟨_, hrun', hmakes.report_counts htime config'.analyzer.limits⟩

/-! ### A small picture -/

/-- A picture of two by two pixels, one of them white. -/
def sketch : Image := .gray ⟨2, 2, #[0, 255, 0, 0], by decide⟩

def sketchDisk : Disk := { entries := [(["in.png"], .file (.picture sketch))] }

def sketchJob : Job := .generate "in.png" (some "out.nc") (.binary (-3)) {}

def Outcome.isGenerated : Outcome → Bool
  | .generated .. => true
  | _ => false

theorem sketchJob_generated :
    ∃ plan output d', sketchJob.run .standard {} "2026-01-01 00:00:00 UTC" sketchDisk =
      (.generated plan output, d') := by
  -- only the kind of the outcome is computed; plan and disk stay as the job gives them
  have hsuccess :
      (sketchJob.run .standard {} "2026-01-01 00:00:00 UTC" sketchDisk).1.isGenerated = true := by
    decide +kernel
  rcases hrun : sketchJob.run .standard {} "2026-01-01 00:00:00 UTC" sketchDisk with ⟨outcome, d'⟩
  rw [hrun] at hsuccess
  cases outcome with
  | generated plan output => exact ⟨plan, output, d', rfl⟩
  | analyzed report => cases hsuccess
  | failed e => cases hsuccess

theorem sketch_analysis_counts :
    (∀ limits, (analyzeText limits (Gcode.program Generator.engravingPlan).toList).Counts
      Generator.engravingPlan) ∧
    ∃ plan output d' report,
      sketchJob.run .standard {} "2026-01-01 00:00:00 UTC" sketchDisk =
        (.generated plan output, d') ∧
      (Job.analyze "out.nc").run .standard {} "2026-01-01 00:00:01 UTC" d' = (.analyzed report, d') ∧
      report.Counts plan := by
  have htime : Text.IsLine "2026-01-01 00:00:00 UTC".toList := by decide
  obtain ⟨htext, hjob⟩ := analysis_counts_generated htime
  obtain ⟨plan, output, d', hrun⟩ := sketchJob_generated
  obtain ⟨report, hanalyzed, hcounts⟩ :=
    hjob .standard {} "in.png" "out.nc" (.binary (-3)) {} sketchDisk d' plan output hrun .standard
      {} "2026-01-01 00:00:01 UTC" d' rfl
  exact ⟨htext Generator.engraver Generator.engravingPlan (.multi Generator.multiPass_engraving),
    plan, output, d', report, hrun, hanalyzed, hcounts⟩

end BasRelief
