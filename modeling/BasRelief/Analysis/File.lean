import BasRelief.Analysis.Analyzer
import BasRelief.Disk.Files

/-!
# Program files

A program file is read line by line. A line that is no text ends the reading with an error, and
nothing is reported of the lines before it.
-/

namespace BasRelief

/-- Why a program file cannot be read (`ProgramReadError`). -/
inductive ProgramError where
  | notFound (path : String)
  /-- The number counts the lines that were read. -/
  | unreadable (path : String) (line : Nat) (reason : String)
  deriving DecidableEq, Repr

namespace ProgramError

def message : ProgramError → String
  | notFound path => "Program not found: " ++ path
  | unreadable path line reason =>
    "Failed to read program " ++ path ++ " at line " ++ Decimal.natText line ++ ": " ++ reason

end ProgramError

structure ProgramFile where
  path : String
  octets : List UInt8
  /-- A sealed file has a size, but does not open. -/
  isSealed : Bool := false
  deriving DecidableEq, Repr

namespace ProgramFile

/-- The file at a path, as `GcodeFileReader::new` takes it: it is there, but not opened yet. -/
def open? (d : Disk) (path : String) : Except ProgramError ProgramFile :=
  match d.find path with
  | .ok (.file content) => .ok { path, octets := content.bytes }
  | .ok (.sealedFile content) => .ok { path, octets := content.bytes, isSealed := true }
  | _ => .error (.notFound path)

def size (p : ProgramFile) : Nat := p.octets.length

/-- The lines in front of the first one that is no text, and whether there is such a line. -/
def textLines : List (List UInt8) → List (List Char) × Bool
  | [] => ([], false)
  | line :: rest =>
    match Text.decode? line with
    | none => ([], true)
    | some cs => let (lines, broken) := textLines rest; (cs :: lines, broken)

/-- The lines that `read_lines` gives out before it ends or fails. -/
def lines (p : ProgramFile) : List (List Char) :=
  if p.isSealed then [] else (textLines (Text.octetLines p.octets)).1

/-- Why `read_lines` fails. -/
def fault? (p : ProgramFile) : Option ProgramError :=
  if p.isSealed then some (.unreadable p.path 0 DiskError.denied.message)
  else if (textLines (Text.octetLines p.octets)).2 then
    some (.unreadable p.path p.lines.length DiskError.notText.message)
  else none

def analyze (limits : AnalysisLimits Float) (p : ProgramFile) :
    Except ProgramError (AnalysisReport Float) :=
  match p.fault? with
  | some e => .error e
  | none => .ok (analyzeLines limits p.lines)

end ProgramFile

/-- The report on a file (`analyze_file`). -/
def analyzeFile (limits : AnalysisLimits Float) (d : Disk) (path : String) :
    Except ProgramError (AnalysisReport Float) := do
  (← ProgramFile.open? d path).analyze limits

end BasRelief
