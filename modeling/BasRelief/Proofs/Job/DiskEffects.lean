import BasRelief.Job.Basic
import BasRelief.Proofs.Disk.Places

/-!
# What a job does to the disk

A job that analyzes changes nothing, and neither does one that fails or breaks off. A job that makes
a plan replaces its output file by the text of the plan, and no other file. It fails exactly where
the image, the plan or the writing does, and breaks off where the making of the plan does.
-/

namespace BasRelief

/-! ### Replaced files -/

/-- The disk `d'` is `d` with a text in place of the file that a path means. -/
structure Disk.Replaces (d : Disk) (path : String) (cs : List Char) (d' : Disk) : Prop where
  octets : d'.readOctets path = .ok (Text.encode cs)
  text : d'.readText path = .ok cs
  here : d'.here = d.here
  places : ∀ place, d.filePlace? path ≠ some place → d'.get? place = d.get? place
  files : ∀ other, d.filePlace? other ≠ d.filePlace? path → d'.file? other = d.file? other

theorem Disk.replaces_of_writeText {d d' : Disk} {path : String} {cs : List Char}
    (h : d.writeText path cs = .ok d') : d.Replaces path cs d' := by
  have hgrown := Grown.of_write h
  refine ⟨readOctets_of_writeText h, readText_of_writeText h, hgrown.here, hgrown.kept, ?_⟩
  intro other hother
  refine hgrown.file?_eq fun place hplace hwritten => hother ?_
  exact hplace.trans hwritten.symm

namespace Job

/-! ### Effects and failures -/

/-- What a job did to the disk when it ended with an outcome. A failure is returned by the job; a
fatal error is what is left of one that broke off. -/
inductive Effect (d : Disk) : Job → Outcome → Disk → Prop where
  | analyzed (program : String) (report : AnalysisReport Float) :
      Effect d (.analyze program) (.analyzed report) d
  | failed (job : Job) (e : JobError) (returned : e.isFatal = false) : Effect d job (.failed e) d
  | brokenOff (job : Job) (e : JobError) (fatal : e.isFatal = true) : Effect d job (.failed e) d
  | shown (image : String) (mode : GenerationMode) (size : TargetSize Float) (plan : Plan Float) :
      Effect d (.generate image none mode size) (.generated plan none) d
  | written (image path : String) (mode : GenerationMode) (size : TargetSize Float)
      (plan : Plan Float) (d' : Disk) (file : d.Replaces path (Gcode.program plan).toList d') :
      Effect d (.generate image (some path) mode size) (.generated plan (some path)) d'

/-- The stages at which a job fails, and the error with which it then does. -/
inductive Fails (lib : ImageLibrary) (config : Config) (time : String) (d : Disk) :
    Job → JobError → Prop where
  | image {image : String} {output : Option String} {mode : GenerationMode}
      {size : TargetSize Float} {e : ImageError} (loading : Image.load lib d image = .error e) :
      Fails lib config time d (.generate image output mode size) (.generation (.image e))
  | plan {image : String} {output : Option String} {mode : GenerationMode}
      {size : TargetSize Float} {picture : Image} {e : GenerationError}
      (loading : Image.load lib d image = .ok picture)
      (generation : Pipeline.generate lib ⟨config.generator, size, some picture⟩ time mode =
        .error e)
      (returned : e.isFatal = false) :
      Fails lib config time d (.generate image output mode size) (.generation e)
  | output {image path : String} {mode : GenerationMode} {size : TargetSize Float}
      {picture : Image} {made : Plan Float} {e : DiskError}
      (loading : Image.load lib d image = .ok picture)
      (generation : Pipeline.generate lib ⟨config.generator, size, some picture⟩ time mode =
        .ok made)
      (writing : d.writeText path (Gcode.program made).toList = .error e) :
      Fails lib config time d (.generate image (some path) mode size) (.unwritten path e)
  | program {program : String} {e : ProgramError}
      (analysis : analyzeFile config.analyzer.limits d program = .error e) :
      Fails lib config time d (.analyze program) (.program e)

/-- A job breaks off where the making of its plan does. -/
inductive BreaksOff (lib : ImageLibrary) (config : Config) (time : String) (d : Disk) :
    Job → JobError → Prop where
  | plan {image : String} {output : Option String} {mode : GenerationMode}
      {size : TargetSize Float} {picture : Image} {e : GenerationError}
      (loading : Image.load lib d image = .ok picture)
      (generation : Pipeline.generate lib ⟨config.generator, size, some picture⟩ time mode =
        .error e)
      (fatal : e.isFatal = true) :
      BreaksOff lib config time d (.generate image output mode size) (.generation e)

/-! ### Running a job -/

theorem generateFromFile_of_loaded {lib : ImageLibrary} {settings : GeneratorSettings} {d : Disk}
    {image : String} {picture : Image} (h : Image.load lib d image = .ok picture) (time : String)
    (mode : GenerationMode) (size : TargetSize Float) :
    Pipeline.generateFromFile lib settings time d image mode size =
      Pipeline.generate lib ⟨settings, size, some picture⟩ time mode := by
  rw [Pipeline.generateFromFile, h]
  rfl

theorem generateFromFile_of_unloaded {lib : ImageLibrary} {settings : GeneratorSettings} {d : Disk}
    {image : String} {e : ImageError} (h : Image.load lib d image = .error e) (time : String)
    (mode : GenerationMode) (size : TargetSize Float) :
    Pipeline.generateFromFile lib settings time d image mode size = .error (.image e) := by
  rw [Pipeline.generateFromFile, h]
  rfl

section
variable {lib : ImageLibrary} {config : Config} {time : String} {d : Disk} {job : Job}
  {e : JobError}

theorem effect_failed (d : Disk) (job : Job) (e : JobError) : job.Effect d (.failed e) d := by
  cases hfatal : e.isFatal with
  | false => exact .failed job e hfatal
  | true => exact .brokenOff job e hfatal

theorem effect_run (lib : ImageLibrary) (config : Config) (time : String) (d : Disk) (job : Job) :
    job.Effect d (job.run lib config time d).1 (job.run lib config time d).2 := by
  cases job with
  | analyze program =>
    rw [run]
    cases analyzeFile config.analyzer.limits d program with
    | error e => exact effect_failed d _ _
    | ok report => exact .analyzed program report
  | generate image output mode size =>
    rw [run]
    cases Pipeline.generateFromFile lib config.generator time d image mode size with
    | error e => exact effect_failed d _ _
    | ok plan =>
      cases output with
      | none => exact .shown image mode size plan
      | some path =>
        simp only [deliver]
        cases hwrite : d.writeText path (Gcode.program plan).toList with
        | error e => exact effect_failed d _ _
        | ok d' => exact .written image path mode size plan d' (Disk.replaces_of_writeText hwrite)

/-- What ends with an error has failed or broken off, one stage after the other. -/
theorem ends_of_failed (h : (job.run lib config time d).1 = .failed e) :
    (e.isFatal = false ∧ job.Fails lib config time d e) ∨
      (e.isFatal = true ∧ job.BreaksOff lib config time d e) := by
  cases job with
  | analyze program =>
    rw [run] at h
    cases hreport : analyzeFile config.analyzer.limits d program with
    | error e =>
      rw [hreport] at h
      obtain rfl := Outcome.failed.inj h
      exact .inl ⟨rfl, .program hreport⟩
    | ok report =>
      rw [hreport] at h
      cases h
  | generate image output mode size =>
    rw [run] at h
    cases hload : Image.load lib d image with
    | error e =>
      rw [generateFromFile_of_unloaded hload] at h
      obtain rfl := Outcome.failed.inj h
      exact .inl ⟨rfl, .image hload⟩
    | ok picture =>
      rw [generateFromFile_of_loaded hload] at h
      cases hplan : Pipeline.generate lib ⟨config.generator, size, some picture⟩ time mode with
      | error e =>
        rw [hplan] at h
        obtain rfl := Outcome.failed.inj h
        cases hfatal : e.isFatal with
        | false => exact .inl ⟨hfatal, .plan hload hplan hfatal⟩
        | true => exact .inr ⟨hfatal, .plan hload hplan hfatal⟩
      | ok plan =>
        rw [hplan] at h
        cases output with
        | none => cases h
        | some path =>
          simp only [deliver] at h
          cases hwrite : d.writeText path (Gcode.program plan).toList with
          | error e =>
            rw [hwrite] at h
            obtain rfl := Outcome.failed.inj h
            exact .inl ⟨rfl, .output hload hplan hwrite⟩
          | ok d' =>
            rw [hwrite] at h
            cases h

theorem Fails.run_eq (h : job.Fails lib config time d e) :
    (job.run lib config time d).1 = .failed e ∧ e.isFatal = false := by
  cases h with
  | image loading =>
    rw [run, generateFromFile_of_unloaded loading]
    exact ⟨rfl, rfl⟩
  | plan loading generation returned =>
    rw [run, generateFromFile_of_loaded loading, generation]
    exact ⟨rfl, returned⟩
  | output loading generation writing =>
    refine ⟨?_, rfl⟩
    rw [run, generateFromFile_of_loaded loading, generation]
    simp only [deliver, writing]
  | program analysis =>
    rw [run, analysis]
    exact ⟨rfl, rfl⟩

theorem BreaksOff.run_eq (h : job.BreaksOff lib config time d e) :
    (job.run lib config time d).1 = .failed e ∧ e.isFatal = true := by
  cases h with
  | plan loading generation fatal =>
    rw [run, generateFromFile_of_loaded loading, generation]
    exact ⟨rfl, fatal⟩

end
end Job

theorem Outcome.isFailure_iff {outcome : Outcome} :
    outcome.isFailure = true ↔ ∃ e, outcome = .failed e := by
  cases outcome with
  | failed e => exact iff_of_true rfl ⟨e, rfl⟩
  | _ => exact iff_of_false Bool.false_ne_true fun ⟨e, h⟩ => by cases h

/-- A job leaves the disk as it was, or replaces its output file by the text of the plan that it
returns. It returns a failure exactly where one of its stages fails, and breaks off exactly where
the making of its plan does. -/
theorem jobs_touch_output_only (lib : ImageLibrary) (config : Config) (time : String) (d : Disk)
    (job : Job) :
    job.Effect d (job.run lib config time d).1 (job.run lib config time d).2 ∧
      (∀ e, (job.run lib config time d).1 = .failed e ∧ e.isFatal = false ↔
        job.Fails lib config time d e) ∧
      (∀ e, (job.run lib config time d).1 = .failed e ∧ e.isFatal = true ↔
        job.BreaksOff lib config time d e) ∧
      ((job.run lib config time d).1.isFailure = true ↔
        ∃ e, job.Fails lib config time d e ∨ job.BreaksOff lib config time d e) := by
  have hends (e : JobError) : (job.run lib config time d).1 = .failed e ↔
      job.Fails lib config time d e ∨ job.BreaksOff lib config time d e :=
    ⟨fun hfailed => (Job.ends_of_failed hfailed).imp And.right And.right,
      fun hend => hend.elim (fun hfails => hfails.run_eq.1) fun hbreaks => hbreaks.run_eq.1⟩
  refine ⟨job.effect_run lib config time d, fun e => ⟨?_, Job.Fails.run_eq⟩,
    fun e => ⟨?_, Job.BreaksOff.run_eq⟩, ?_⟩
  · rintro ⟨hfailed, hreturned⟩
    obtain ⟨_, hfails⟩ | ⟨hfatal, _⟩ := Job.ends_of_failed hfailed
    · exact hfails
    · cases hreturned.symm.trans hfatal
  · rintro ⟨hfailed, hfatal⟩
    obtain ⟨hreturned, _⟩ | ⟨_, hbreaks⟩ := Job.ends_of_failed hfailed
    · cases hreturned.symm.trans hfatal
    · exact hbreaks
  · rw [Outcome.isFailure_iff]
    exact exists_congr hends

end BasRelief
