import BasRelief.CommandLine.Request
import BasRelief.Config.File
import BasRelief.Analysis.Codec
import BasRelief.Job.Basic

/-!
# Running a command

What a command prints, how it ends, and the disk after it.
-/

namespace BasRelief.CommandLine

structure Reply where
  exitCode : Nat := 0
  output : String := ""
  errors : String := ""
  deriving DecidableEq, Repr

/-! ### Failures -/

def indented (mark : String) (cause : String) : String :=
  let blanks := String.ofList (List.replicate mark.length ' ')
  mark ++ ("\n" ++ blanks).intercalate ((Text.pieces '\n' (cause.toList ++ ['\n'])).map
    fun (piece, _) => String.ofList piece)

/-- The causes of a failure: one stands alone, several are numbered from zero. -/
def causesText : List String → String
  | [] => ""
  | [cause] => "\n\nCaused by:\n" ++ indented "    " cause
  | causes =>
    "\n\nCaused by:" ++ String.join (causes.zipIdx.map fun (cause, n) =>
      let number := Decimal.natText n
      let blanks := String.ofList (List.replicate (5 - number.length) ' ')
      "\n" ++ indented (blanks ++ number ++ ": ") cause)

def failure (message : String) (causes : List String) : Reply where
  exitCode := 1
  errors := "Error: " ++ message ++ causesText causes ++ "\n"

def configCauses (e : ConfigError) : List String := e.message :: e.cause?.toList

/-! ### Commands -/

def jobOf (config : Config) : Command → Option Job
  | .generate image output mode depth? reliefDepth? enhancement size =>
    let mode := match mode with
      | .color => .color
      | .grayscale => .grayscale (reliefDepth?.getD config.generator.reliefDepth) enhancement
      | .binary => .binary (depth?.getD config.generator.totalDepth)
    some (.generate image (some output) mode size)
  | .analyze program _ => some (.analyze program)
  | .initConfig _ => none

def planLine (plan : Plan Float) (output : Option String) : String :=
  "Wrote " ++ output.getD "" ++ " (" ++ Decimal.natText plan.cutCount ++ " cuts, " ++
    Decimal.natText plan.rapidCount ++ " rapids, " ++ Decimal.natText plan.passes ++ " pass(es))\n"

def outcomeReply (json : Bool) : Outcome → Reply
  | .generated plan output => { output := planLine plan output }
  | .analyzed report =>
    { output := if json then Document.Json.pretty report.toValue ++ "\n" else report.text }
  | .failed e => failure e.message []

def initConfig (d : Disk) (path : String) : Reply × Disk :=
  match ({} : ConfigSession).saveTo d path with
  | (d, .ok ()) => ({ output := "Wrote default configuration to " ++ path ++ "\n" }, d)
  | (d, .error e) => (failure ("Failed to write " ++ path) (configCauses e), d)

def openLog (config : Config) (d : Disk) : Except Reply Disk :=
  match config.log.file with
  | none => .ok d
  | some path =>
    (d.touch path).mapError fun e => failure ("Failed to open log file " ++ path) [e.message]

def runJob (lib : ImageLibrary) (home time : String) (d : Disk) (request : Request) :
    Reply × Disk :=
  match ConfigSession.loadOrDefault d home request.config? with
  | .error e => (failure "Failed to load configuration" (configCauses e), d)
  | .ok session =>
    match openLog session.config d, jobOf session.config request.command with
    | .error reply, _ => (reply, d)
    | .ok d, none => ({}, d)
    | .ok d, some job =>
      let (outcome, d) := job.run lib session.config time d
      (outcomeReply (request.command matches .analyze _ true) outcome, d)

def usage : String :=
  "Usage: [--config <PATH>] <COMMAND>\n\nCommands:\n  generate <IMAGE> --output <PATH>\n  " ++
    "analyze <PROGRAM> [--json]\n  init-config <PATH>\n  help [COMMAND]\n"

def stopReply : Stop → Reply
  | .usage => { exitCode := 2, errors := usage }
  | .help => { output := usage }
  | .version => { output := "0.3.0\n" }

/-- Runs a command line. `home` is the folder for configurations. -/
def run (lib : ImageLibrary) (home time : String) (d : Disk) (words : List String) : Reply × Disk :=
  match request words with
  | .error why => (stopReply why, d)
  | .ok request =>
    match request.command with
    | .initConfig path => initConfig d path
    | _ => runJob lib home time d request

end BasRelief.CommandLine
