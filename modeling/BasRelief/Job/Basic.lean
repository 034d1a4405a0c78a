import BasRelief.Analysis.File
import BasRelief.Gcode.Printer
import BasRelief.Pipeline

/-!
# Jobs

A job makes a program from an image, or reports on a program. It changes nothing on the disk but
its output file, and that only if everything before succeeded.
-/

namespace BasRelief

/-- An image to make a program from, or a program to analyse (`Job`). -/
inductive Job where
  | generate (image : String) (output : Option String) (mode : GenerationMode)
      (size : TargetSize Float)
  | analyze (program : String)

inductive JobError where
  | generation (e : GenerationError)
  | unwritten (path : String) (e : DiskError)
  | program (e : ProgramError)
  deriving Repr

namespace JobError

def message : JobError → String
  | generation e => e.message
  | unwritten path e => "failed to write " ++ path ++ ": " ++ e.message
  | program e => e.message

def isFatal : JobError → Bool
  | generation e => e.isFatal
  | _ => false

end JobError

/-- What came of a job (`JobOutcome`). -/
inductive Outcome where
  | generated (plan : Plan Float) (output : Option String)
  | analyzed (report : AnalysisReport Float)
  | failed (e : JobError)

namespace Outcome

def isFailure : Outcome → Bool
  | failed _ => true
  | _ => false

end Outcome

namespace Job

def deliver (d : Disk) (plan : Plan Float) : Option String → Outcome × Disk
  | none => (.generated plan none, d)
  | some path =>
    match d.writeText path (Gcode.program plan).toList with
    | .error e => (.failed (.unwritten path e), d)
    | .ok d => (.generated plan (some path), d)

/-- The outcome of a job and the disk after it (`run_job`). -/
def run (lib : ImageLibrary) (config : Config) (time : String) (d : Disk) : Job → Outcome × Disk
  | generate image output mode size =>
    match Pipeline.generateFromFile lib config.generator time d image mode size with
    | .error e => (.failed (.generation e), d)
    | .ok plan => deliver d plan output
  | analyze program =>
    match analyzeFile config.analyzer.limits d program with
    | .error e => (.failed (.program e), d)
    | .ok report => (.analyzed report, d)

/-! ### Laws -/

theorem run_analyze_disk (lib : ImageLibrary) (config : Config) (time : String) (d : Disk)
    (program : String) : ((analyze program).run lib config time d).2 = d := by
  cases h : analyzeFile config.analyzer.limits d program <;> simp [run, h]

end Job
end BasRelief
