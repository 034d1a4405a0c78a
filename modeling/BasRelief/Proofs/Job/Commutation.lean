import BasRelief.Proofs.Disk.Places
import BasRelief.Proofs.Job.GenerateAnalyze
import BasRelief.Proofs.Job.Stamp

/-!
# Jobs in any order

Jobs are independent when the output file of none is a file that another one writes or reads. Such
jobs may run in any order: each comes to the outcome that it has alone, and the disk ends the same.
The one thing that the order can change is the cause for which an output file could not be written.
-/

namespace BasRelief

/-! ### Independent jobs -/

namespace Job

/-- The path of the file that a job reads. -/
def source : Job → String
  | generate image .. => image
  | analyze program => program

/-- The path of the file that a job writes. -/
def output? : Job → Option String
  | generate _ output _ _ => output
  | analyze _ => none

def outputPlace? (d : Disk) (job : Job) : Option Place := job.output?.bind d.filePlace?

/-- No output file of a job is a file that another job writes or reads. -/
def Spares (d : Disk) (job other : Job) : Prop :=
  ∀ place ∈ job.outputPlace? d,
    other.outputPlace? d ≠ some place ∧ d.filePlace? other.source ≠ some place

def Independent (d : Disk) (job other : Job) : Prop := job.Spares d other ∧ other.Spares d job

/-- No output path of a job leads through the output file of another job. -/
def Bypasses (d : Disk) (job other : Job) : Prop :=
  ∀ path ∈ job.output?, ∀ place ∈ d.passes path, other.outputPlace? d ≠ some place

def Apart (d : Disk) (job other : Job) : Prop := job.Bypasses d other ∧ other.Bypasses d job

instance (d : Disk) (job other : Job) : Decidable (job.Spares d other) :=
  inferInstanceAs (Decidable (∀ _ ∈ _, _))

instance (d : Disk) (job other : Job) : Decidable (job.Bypasses d other) :=
  inferInstanceAs (Decidable (∀ _ ∈ _, _))

instance (d : Disk) (job other : Job) : Decidable (job.Independent d other) :=
  inferInstanceAs (Decidable (_ ∧ _))

instance (d : Disk) (job other : Job) : Decidable (job.Apart d other) :=
  inferInstanceAs (Decidable (_ ∧ _))

end Job

/-- Runs jobs one after the other, each at its time. -/
def runJobs (lib : ImageLibrary) (config : Config) :
    List (String × Job) → Disk → List (Job × Outcome) × Disk
  | [], d => ([], d)
  | (time, job) :: rest, d =>
    let (outcome, d) := job.run lib config time d
    let (outcomes, d) := runJobs lib config rest d
    ((job, outcome) :: outcomes, d)

namespace Outcome

/-- The outcome without the cause for which its file could not be written. -/
def causeless : Outcome → Outcome
  | failed (.unwritten path _) => failed (.unwritten path .notFound)
  | outcome => outcome

end Outcome

/-- Two disks are the same, but for the stamps of plans that were written to files. -/
structure Disk.SameUndated (d d' : Disk) : Prop where
  here : d.here = d'.here
  places : ∀ place, d.get? place = d'.get? place ∨
    ∃ plan plan' : Plan Float, plan.undated = plan'.undated ∧
      d.get? place = some plan.file ∧ d'.get? place = some plan'.file

/-! ### What a job reads and writes -/

/-- A path that finds the same in two disks finds one entry in both of them, or nothing. -/
theorem Disk.find_alike {d d' : Disk} {path : String}
    (h : (d'.find path).toOption = (d.find path).toOption) :
    (∃ e, d.find path = .ok e ∧ d'.find path = .ok e) ∨
      ∃ err err', d.find path = .error err ∧ d'.find path = .error err' := by
  cases hd : d.find path with
  | error err =>
    cases hd' : d'.find path with
    | error err' => exact .inr ⟨err, err', rfl, rfl⟩
    | ok e => rw [hd, hd'] at h; cases h
  | ok e =>
    cases hd' : d'.find path with
    | error err => rw [hd, hd'] at h; cases h
    | ok e' =>
      rw [hd, hd'] at h
      exact .inl ⟨e, rfl, congrArg Except.ok (Option.some.inj h)⟩

/-- What a library makes of a file depends on what is found there and on nothing else. -/
theorem Image.load_congr {d d' : Disk} {path : String}
    (h : (d'.find path).toOption = (d.find path).toOption) (lib : ImageLibrary) :
    Image.load lib d' path = Image.load lib d path := by
  unfold load Disk.exists? Disk.content
  obtain ⟨e, hd, hd'⟩ | ⟨err, err', hd, hd'⟩ := Disk.find_alike h
  · rw [hd, hd']
  · rw [hd, hd']
    rfl

theorem ProgramFile.open?_congr {d d' : Disk} {path : String}
    (h : (d'.find path).toOption = (d.find path).toOption) : open? d' path = open? d path := by
  unfold open?
  obtain ⟨e, hd, hd'⟩ | ⟨err, err', hd, hd'⟩ := Disk.find_alike h <;> rw [hd, hd']

theorem analyzeFile_congr {d d' : Disk} {path : String}
    (h : (d'.find path).toOption = (d.find path).toOption) (limits : AnalysisLimits Float) :
    analyzeFile limits d' path = analyzeFile limits d path := by
  rw [analyzeFile, analyzeFile, ProgramFile.open?_congr h]

theorem generateFromFile_congr {d d' : Disk} {path : String}
    (h : (d'.find path).toOption = (d.find path).toOption) (lib : ImageLibrary)
    (settings : GeneratorSettings) (time : String) (mode : GenerationMode) (size : TargetSize Float) :
    Pipeline.generateFromFile lib settings time d' path mode size =
      Pipeline.generateFromFile lib settings time d path mode size := by
  rw [Pipeline.generateFromFile, Pipeline.generateFromFile, Image.load_congr h lib]

namespace Job

section Generate
variable {lib : ImageLibrary} {config : Config} {time image : String} {d : Disk}
  {mode : GenerationMode} {size : TargetSize Float}

theorem run_of_unmade {e : GenerationError}
    (h : Pipeline.generateFromFile lib config.generator time d image mode size = .error e)
    (output : Option String) :
    (generate image output mode size).run lib config time d = (.failed (.generation e), d) := by
  rw [run, h]

theorem run_of_made {plan : Plan Float}
    (h : Pipeline.generateFromFile lib config.generator time d image mode size = .ok plan)
    (output : Option String) :
    (generate image output mode size).run lib config time d = deliver d plan output := by
  rw [run, h]

end Generate

/-- A run at a time writes the text of a plan to the file at a place, if nothing was run before. -/
def Writes (lib : ImageLibrary) (config : Config) (d : Disk) (run : String × Job) (place : Place)
    (plan : Plan Float) : Prop :=
  ∃ path, (run.2.run lib config run.1 d).1 = .generated plan (some path) ∧
    d.filePlace? path = some place

section Runs
variable {lib : ImageLibrary} {config : Config} {d d' : Disk} {time : String} {job : Job}

theorem output?_of_run {plan : Plan Float} {path : String}
    (h : (job.run lib config time d).1 = .generated plan (some path)) : job.output? = some path := by
  cases job with
  | analyze program =>
    rw [run] at h
    cases hreport : analyzeFile config.analyzer.limits d program <;> rw [hreport] at h <;> cases h
  | generate image output mode size =>
    rw [run] at h
    cases hplan : Pipeline.generateFromFile lib config.generator time d image mode size with
    | error e => rw [hplan] at h; cases h
    | ok made =>
      rw [hplan] at h
      cases output with
      | none => cases h
      | some path' =>
        cases htarget : d.target path' with
        | error e =>
          dsimp only at h
          rw [deliver_of_no_target htarget] at h
          cases h
        | ok found =>
          dsimp only at h
          rw [deliver_of_target htarget] at h
          cases h
          rfl

theorem outputPlace?_of_writes {run : String × Job} {place : Place} {plan : Plan Float}
    (h : Writes lib config d run place plan) : run.2.outputPlace? d = some place := by
  obtain ⟨path, hrun, hplace⟩ := h
  rw [outputPlace?, output?_of_run hrun]
  exact hplace

theorem Writes.unique {run : String × Job} {place place' : Place} {plan plan' : Plan Float}
    (h : Writes lib config d run place plan) (h' : Writes lib config d run place' plan') :
    place' = place ∧ plan' = plan := by
  obtain ⟨path, hrun, hplace⟩ := h
  obtain ⟨path', hrun', hplace'⟩ := h'
  cases hrun.symm.trans hrun'
  exact ⟨Option.some.inj (hplace'.symm.trans hplace), rfl⟩

/-- A run at another time writes a plan of the same steps to the same file. -/
theorem Writes.undated {place : Place} {plan : Plan Float}
    (h : Writes lib config d (time, job) place plan) (time' : String) :
    ∃ plan', Writes lib config d (time', job) place plan' ∧ plan.undated = plan'.undated := by
  obtain ⟨path, hrun, hplace⟩ := h
  have hsame : (Outcome.generated plan (some path)).undated =
      (job.run lib config time' d).1.undated := by
    rw [← hrun]
    exact job.run_undated lib config time time' d
  obtain ⟨plan', hrun', hplan⟩ := Outcome.eq_generated_of_undated hsame
  exact ⟨plan', ⟨path, hrun', hplace⟩, hplan⟩

end Runs

/-! ### One run after others -/

/-- What runs one after the other have made of a disk `d`: each has written its file as if it had
run alone. -/
structure Settled (lib : ImageLibrary) (config : Config) (d : Disk) (done : List (String × Job))
    (d' : Disk) : Prop where
  grown : d.Grown (fun place => ∃ run ∈ done, ∃ plan, Writes lib config d run place plan) d'
  files : ∀ run ∈ done, ∀ place plan, Writes lib config d run place plan →
    d'.get? place = some plan.file

section Settled
variable {lib : ImageLibrary} {config : Config} {d d' : Disk} {done : List (String × Job)}
  {time : String} {job : Job}

theorem settled_nil (lib : ImageLibrary) (config : Config) (d : Disk) :
    Settled lib config d [] d where
  grown := (Disk.Grown.refl d).congr fun place => by simp
  files := fun run hrun => nomatch hrun

theorem Settled.unchanged (h : Settled lib config d done d')
    (hnone : ∀ place plan, ¬Writes lib config d (time, job) place plan) :
    Settled lib config d (done ++ [(time, job)]) d' where
  grown := h.grown.congr fun place => by simp [or_and_right, exists_or, hnone]
  files := by
    intro run hrun place plan hwrites
    obtain hdone | rfl := List.mem_append.1 hrun |>.imp_right List.eq_of_mem_singleton
    · exact h.files run hdone place plan hwrites
    · exact absurd hwrites (hnone place plan)

theorem Settled.put (h : Settled lib config d done d') {place : Place} {plan : Plan Float}
    (hwrites : Writes lib config d (time, job) place plan) (root : place ≠ [])
    (before : ¬d.hasFolder place = true)
    (fresh : ∀ run ∈ done, ∀ plan, ¬Writes lib config d run place plan) :
    Settled lib config d (done ++ [(time, job)]) (d'.put place plan.file) where
  grown := by
    refine (h.grown.put root before _).congr fun other => ?_
    have hiff : (∃ made, Writes lib config d (time, job) other made) ↔ other = place := by
      refine ⟨fun ⟨made, hmade⟩ => (hwrites.unique hmade).1, fun hother => ⟨plan, hother ▸ hwrites⟩⟩
    simp [or_and_right, exists_or, hiff, or_comm]
  files := by
    intro run hrun other made hmade
    obtain hdone | rfl := List.mem_append.1 hrun |>.imp_right List.eq_of_mem_singleton
    · have hne : other ≠ place := fun heq => fresh run hdone made (heq ▸ hmade)
      rw [Disk.get?_put_of_ne d' hne]
      exact h.files run hdone other made hmade
    · obtain ⟨rfl, rfl⟩ := hwrites.unique hmade
      exact Disk.get?_put_self d' root _

/-- What was written so far is no file that an independent job reads or writes. -/
theorem Settled.untouched {place : Place}
    (independent : ∀ run ∈ done, run.2.Independent d job)
    (hplace : d.filePlace? job.source = some place ∨ job.outputPlace? d = some place) :
    ¬∃ run ∈ done, ∃ plan, Writes lib config d run place plan := by
  rintro ⟨run, hrun, plan, hwrites⟩
  obtain ⟨houtput, hsource⟩ := (independent run hrun).1 place (outputPlace?_of_writes hwrites)
  exact hplace.elim hsource houtput

/-- A run on `d'` comes to what it comes to on `d`, but for the cause of a failed write. -/
structure Repeats (lib : ImageLibrary) (config : Config) (d : Disk) (done : List (String × Job))
    (d' : Disk) (time : String) (job : Job) : Prop where
  settled : Settled lib config d (done ++ [(time, job)]) (job.run lib config time d').2
  outcome : (job.run lib config time d').1.causeless = (job.run lib config time d).1.causeless
  exact : (∀ run ∈ done, job.Bypasses d run.2) →
    (job.run lib config time d').1 = (job.run lib config time d).1

theorem Settled.repeats_of_silent (h : Settled lib config d done d')
    (same : (job.run lib config time d').1 = (job.run lib config time d).1)
    (kept : (job.run lib config time d').2 = d')
    (silent : ∀ plan path, (job.run lib config time d).1 ≠ .generated plan (some path)) :
    Repeats lib config d done d' time job where
  settled := by
    rw [kept]
    exact h.unchanged fun place plan ⟨path, hrun, _⟩ => silent plan path hrun
  outcome := congrArg Outcome.causeless same
  exact := fun _ => same

theorem Settled.repeats_analyze (h : Settled lib config d done d') {program : String}
    (hread : (d'.find program).toOption = (d.find program).toOption) :
    Repeats lib config d done d' time (.analyze program) := by
  refine h.repeats_of_silent ?_ (run_analyze_disk lib config time d' program) ?_
  · rw [Job.run, Job.run, analyzeFile_congr hread]
    cases analyzeFile config.analyzer.limits d program <;> rfl
  · intro plan path hrun
    cases output?_of_run hrun

theorem Settled.repeats_deliver (h : Settled lib config d done d') {image path : String}
    {mode : GenerationMode} {size : TargetSize Float} {plan : Plan Float}
    (hplan : Pipeline.generateFromFile lib config.generator time d image mode size = .ok plan)
    (hplan' : Pipeline.generateFromFile lib config.generator time d' image mode size = .ok plan)
    (fresh : ∀ place, d.filePlace? path = some place →
      ¬∃ run ∈ done, ∃ plan, Writes lib config d run place plan) :
    Repeats lib config d done d' time (.generate image (some path) mode size) := by
  have htargets := h.grown.target_eq fresh
  cases htarget : d.target path with
  | error e =>
    cases htarget' : d'.target path with
    | ok found => rw [htarget, htarget'] at htargets; cases htargets
    | error e' =>
      have hrun := (run_of_made hplan (some path)).trans (deliver_of_no_target htarget plan)
      have hrun' := (run_of_made hplan' (some path)).trans (deliver_of_no_target htarget' plan)
      refine ⟨?settled, ?outcome, fun bypasses => ?exact⟩
      case settled =>
        rw [hrun']
        exact h.unchanged fun place made ⟨_, hmade, _⟩ => by rw [hrun] at hmade; cases hmade
      case outcome =>
        rw [hrun, hrun']
        rfl
      case exact =>
        have hpasses : ∀ place ∈ d.passes path, ¬∃ run ∈ done, ∃ plan,
            Writes lib config d run place plan := by
          rintro place hplace ⟨run, hdone, made, hwrites⟩
          exact bypasses run hdone path rfl place hplace (outputPlace?_of_writes hwrites)
        have hcause := htarget'.symm.trans
          ((h.grown.target_eq_of_passes fresh hpasses).trans htarget)
        rw [hrun, hrun', Except.error.inj hcause]
  | ok found =>
    obtain ⟨place, content⟩ := found
    have htarget' : d'.target path = .ok (place, content) := by
      rw [htarget] at htargets
      cases htarget' : d'.target path with
      | error e => rw [htarget'] at htargets; cases htargets
      | ok found => rw [htarget'] at htargets; rw [Option.some.inj htargets]
    have hrun := (run_of_made hplan (some path)).trans (deliver_of_target htarget plan)
    have hrun' := (run_of_made hplan' (some path)).trans (deliver_of_target htarget' plan)
    obtain ⟨hplace, root, before⟩ := Disk.filePlace?_of_target htarget
    refine ⟨?_, by rw [hrun, hrun'], fun _ => by rw [hrun, hrun']⟩
    rw [hrun']
    refine h.put ⟨path, by rw [hrun], hplace⟩ root before fun run hdone made hwrites => ?_
    exact fresh place hplace ⟨run, hdone, made, hwrites⟩

/-- An independent job does after others what it does alone; only the cause for which its file
cannot be written may differ, if its path leads through their output files. -/
theorem Settled.repeats (h : Settled lib config d done d')
    (independent : ∀ run ∈ done, run.2.Independent d job) :
    Repeats lib config d done d' time job := by
  have hsource : ∀ place, d.filePlace? job.source = some place →
      ¬∃ run ∈ done, ∃ plan, Writes lib config d run place plan :=
    fun place hplace => Settled.untouched independent (.inl hplace)
  cases job with
  | analyze program => exact h.repeats_analyze (h.grown.find_eq hsource)
  | generate image output mode size =>
    have hfind : (d'.find image).toOption = (d.find image).toOption := h.grown.find_eq hsource
    have hmade := generateFromFile_congr hfind lib config.generator time mode size
    cases hplan : Pipeline.generateFromFile lib config.generator time d image mode size with
    | error e =>
      have hrun := run_of_unmade hplan output
      have hrun' := run_of_unmade (hmade.trans hplan) output
      refine h.repeats_of_silent ?_ ?_ ?_
      · rw [hrun, hrun']
      · rw [hrun']
      · rw [hrun]
        exact fun plan path hgenerated => nomatch hgenerated
    | ok plan =>
      cases output with
      | none =>
        have hrun := run_of_made hplan none
        have hrun' := run_of_made (hmade.trans hplan) none
        refine h.repeats_of_silent ?_ ?_ ?_
        · rw [hrun, hrun']
          rfl
        · rw [hrun']
          rfl
        · rw [hrun]
          exact fun plan path hgenerated => nomatch hgenerated
      | some path =>
        exact h.repeats_deliver hplan (hmade.trans hplan) fun place hplace =>
          Settled.untouched independent (.inr hplace)

end Settled

/-! ### Runs one after the other -/

/-- Every run comes to what it comes to alone, and the disk ends with the files of all of them. -/
theorem Settled.repeats_all {lib : ImageLibrary} {config : Config} {d d' : Disk}
    {done : List (String × Job)}
    (h : Settled lib config d done d') (runs : List (String × Job))
    (independent : ((done ++ runs).map Prod.snd).Pairwise (Independent d)) :
    Settled lib config d (done ++ runs) (runJobs lib config runs d').2 ∧
      (runJobs lib config runs d').1.map (fun (job, outcome) => (job, outcome.causeless)) =
        runs.map (fun (time, job) => (job, (job.run lib config time d).1.causeless)) ∧
      (((done ++ runs).map Prod.snd).Pairwise (Apart d) →
        (runJobs lib config runs d').1 =
          runs.map fun (time, job) => (job, (job.run lib config time d).1)) := by
  induction runs generalizing done d' with
  | nil =>
    rw [List.append_nil] at independent ⊢
    exact ⟨h, rfl, fun _ => rfl⟩
  | cons run rest ih =>
    obtain ⟨time, job⟩ := run
    have hsplit : done ++ (time, job) :: rest = (done ++ [(time, job)]) ++ rest := by simp
    have hearlier {R : Job → Job → Prop}
        (hpairs : ((done ++ (time, job) :: rest).map Prod.snd).Pairwise R) :
        ∀ run ∈ done, R run.2 job := by
      rw [List.map_append, List.pairwise_append] at hpairs
      exact fun run hrun => hpairs.2.2 _ (List.mem_map_of_mem hrun) _ List.mem_cons_self
    have hrepeats : Repeats lib config d done d' time job := h.repeats (hearlier independent)
    rw [hsplit] at independent ⊢
    obtain ⟨hsettled, houtcomes, hexact⟩ := ih hrepeats.settled independent
    refine ⟨hsettled, ?_, fun apart => ?_⟩
    · simp only [runJobs, List.map_cons, hrepeats.outcome, houtcomes]
    · have hthis := hrepeats.exact fun run hrun => (hearlier (hsplit ▸ apart) run hrun).2
      simp only [runJobs, List.map_cons, hthis, hexact apart]

end Job

/-! ### Runs in another order -/

section Orders
variable {lib : ImageLibrary} {config : Config} {d : Disk} {runs runs' : List (String × Job)}

theorem exists_writes_of_perm (same : (runs.map Prod.snd).Perm (runs'.map Prod.snd))
    {place : Place} {run : String × Job} {plan : Plan Float} (hrun : run ∈ runs)
    (hwrites : Job.Writes lib config d run place plan) :
    ∃ run' ∈ runs', ∃ plan', Job.Writes lib config d run' place plan' ∧
      plan.undated = plan'.undated := by
  obtain ⟨run', hrun', hjob⟩ := List.mem_map.1 (same.mem_iff.1 (List.mem_map_of_mem hrun))
  obtain ⟨time, job⟩ := run
  obtain ⟨time', job'⟩ := run'
  obtain rfl : job' = job := hjob
  exact ⟨_, hrun', hwrites.undated time'⟩

theorem sameUndated_of_settled {e e' : Disk}
    (same : (runs.map Prod.snd).Perm (runs'.map Prod.snd)) (h : Job.Settled lib config d runs e)
    (h' : Job.Settled lib config d runs' e') : e.SameUndated e' where
  here := h.grown.here.trans h'.grown.here.symm
  places := by
    intro place
    by_cases hwritten : ∃ run ∈ runs, ∃ plan, Job.Writes lib config d run place plan
    · obtain ⟨run, hrun, plan, hwrites⟩ := hwritten
      obtain ⟨run', hrun', plan', hwrites', hplan⟩ := exists_writes_of_perm same hrun hwrites
      exact .inr ⟨plan, plan', hplan, h.files run hrun place plan hwrites,
        h'.files run' hrun' place plan' hwrites'⟩
    · have hwritten' : ¬∃ run ∈ runs', ∃ plan, Job.Writes lib config d run place plan := by
        rintro ⟨run', hrun', plan', hwrites'⟩
        obtain ⟨run, hrun, plan, hwrites, -⟩ := exists_writes_of_perm same.symm hrun' hwrites'
        exact hwritten ⟨run, hrun, plan, hwrites⟩
      exact .inl ((h.grown.kept place hwritten).trans (h'.grown.kept place hwritten').symm)

/-- Outcomes that are those of the jobs alone do not depend on the times, but for stamps. -/
theorem undated_eq_alone {ran : List (Job × Outcome)} (view : Outcome → Outcome)
    (hview : ∀ outcome, (view outcome).undated = view outcome.undated)
    (h : ran.map (fun (job, outcome) => (job, view outcome)) =
      runs.map fun (time, job) => (job, view (job.run lib config time d).1)) :
    ran.map (fun (job, outcome) => (job, (view outcome).undated)) =
      (runs.map Prod.snd).map fun job => (job, view (job.run lib config "" d).1.undated) := by
  have hundated := congrArg (List.map fun (job, outcome) => (job, Outcome.undated outcome)) h
  rw [List.map_map, List.map_map] at hundated
  refine hundated.trans ?_
  rw [List.map_map]
  refine List.map_congr_left fun (time, job) _ => ?_
  simp only [Function.comp, hview, job.run_undated lib config time "" d]

end Orders

theorem Outcome.undated_causeless (outcome : Outcome) :
    outcome.causeless.undated = outcome.undated.causeless := by
  match outcome with
  | .generated _ _ | .analyzed _ => rfl
  | .failed (.generation _) | .failed (.unwritten _ _) | .failed (.program _) => rfl

/-- Independent jobs commute. In any order, and at any times, each has the same outcome but for its
stamp and for the cause of a failed write, and the disk ends the same but for stamps. Where no
output path leads through another job's output file, the causes are the same as well. -/
theorem independent_jobs_commute (lib : ImageLibrary) (config : Config) (d : Disk)
    (runs runs' : List (String × Job))
    (same : (runs.map Prod.snd).Perm (runs'.map Prod.snd))
    (independent : (runs.map Prod.snd).Pairwise (Job.Independent d)) :
    ((runJobs lib config runs d).1.map fun (job, outcome) => (job, outcome.causeless.undated)).Perm
        ((runJobs lib config runs' d).1.map fun (job, outcome) => (job, outcome.causeless.undated)) ∧
      (runJobs lib config runs d).2.SameUndated (runJobs lib config runs' d).2 ∧
      ((runs.map Prod.snd).Pairwise (Job.Apart d) →
        ((runJobs lib config runs d).1.map fun (job, outcome) => (job, outcome.undated)).Perm
          ((runJobs lib config runs' d).1.map fun (job, outcome) => (job, outcome.undated))) := by
  have independent' := (same.pairwise_iff fun h => ⟨h.2, h.1⟩).1 independent
  obtain ⟨hsettled, houtcomes, hexact⟩ := (Job.settled_nil lib config d).repeats_all runs independent
  obtain ⟨hsettled', houtcomes', hexact'⟩ :=
    (Job.settled_nil lib config d).repeats_all runs' independent'
  refine ⟨?outcomes, sameUndated_of_settled same hsettled hsettled', fun apart => ?causes⟩
  case outcomes =>
    rw [undated_eq_alone _ Outcome.undated_causeless houtcomes,
      undated_eq_alone _ Outcome.undated_causeless houtcomes']
    exact same.map _
  case causes =>
    have apart' := (same.pairwise_iff fun h => ⟨h.2, h.1⟩).1 apart
    have hran : (runJobs lib config runs d).1.map (fun (job, outcome) => (job, id outcome)) =
        runs.map fun (time, job) => (job, id (job.run lib config time d).1) :=
      (List.map_id' _).trans (hexact apart)
    have hran' : (runJobs lib config runs' d).1.map (fun (job, outcome) => (job, id outcome)) =
        runs'.map fun (time, job) => (job, id (job.run lib config time d).1) :=
      (List.map_id' _).trans (hexact' apart')
    have halone := undated_eq_alone id (fun _ => rfl) hran
    have halone' := undated_eq_alone id (fun _ => rfl) hran'
    exact (List.Perm.of_eq halone).trans ((same.map _).trans (.of_eq halone'.symm))

/-- The job that carves the small picture to a file. -/
def sketchTo (path : String) : Job := .generate "in.png" (some path) (.binary (-3)) {}

def sketchRuns : List (String × Job) :=
  [("dawn", sketchTo "a"), ("noon", sketchTo "b/c"), ("dusk", .analyze "in.png")]

def sketchRunsBack : List (String × Job) :=
  [("one", .analyze "in.png"), ("two", sketchTo "b/c"), ("three", sketchTo "a")]

theorem sketches_commute :
    (sketchRuns.map Prod.snd).Pairwise (Job.Independent sketchDisk) ∧
      (runJobs .standard {} sketchRuns sketchDisk).2.SameUndated
        (runJobs .standard {} sketchRunsBack sketchDisk).2 ∧
      ((runJobs .standard {} sketchRuns sketchDisk).1.map
        fun (job, outcome) => (job, outcome.undated)).Perm
        ((runJobs .standard {} sketchRunsBack sketchDisk).1.map
          fun (job, outcome) => (job, outcome.undated)) := by
  have same : (sketchRuns.map Prod.snd).Perm (sketchRunsBack.map Prod.snd) :=
    (List.reverse_perm _).symm
  have independent : (sketchRuns.map Prod.snd).Pairwise (Job.Independent sketchDisk) := by
    decide +kernel
  obtain ⟨-, hdisk, houtcomes⟩ :=
    independent_jobs_commute .standard {} sketchDisk sketchRuns sketchRunsBack same independent
  exact ⟨independent, hdisk, houtcomes (by decide +kernel)⟩

/-- What a failure says. -/
def Outcome.message : Outcome → String
  | .failed e => e.message
  | _ => ""

/-- A job into a missing folder fails for another cause once a file of that name is there. -/
theorem causes_depend_on_order :
    [sketchTo "a", sketchTo "a/b"].Pairwise (Job.Independent sketchDisk) ∧
      ¬((runJobs .standard {} [("noon", sketchTo "a"), ("later", sketchTo "a/b")] sketchDisk).1.map
          fun (job, outcome) => (job, outcome.undated)).Perm
        ((runJobs .standard {} [("noon", sketchTo "a/b"), ("later", sketchTo "a")] sketchDisk).1.map
          fun (job, outcome) => (job, outcome.undated)) := by
  refine ⟨by decide +kernel, fun same => ?_⟩
  have hmessages := same.map fun run => run.2.message
  rw [List.map_map, List.map_map] at hmessages
  revert hmessages
  decide +kernel

end BasRelief
