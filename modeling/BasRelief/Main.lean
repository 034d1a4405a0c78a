import BasRelief.CommandLine.Run
import BasRelief.Image.Standard
import Std.Time

/-!
# The program

The outer layer. It looks at the files that a command names, runs the command on a disk that holds
just these, and carries the changes back.
-/

namespace BasRelief.Program

def passed (here : Place) (path : String) : List Place :=
  let start := if Path.isAbsolute path then [] else here
  let follow (places : List Place × Place) (name : String) : List Place × Place :=
    let next := if name = "." then places.2 else if name = ".." then places.2.dropLast
      else places.2 ++ [name]
    (places.1 ++ [next], next)
  ((Path.names path).foldl follow ([], start)).1

/-- A folder in which nothing can be looked up is sealed. -/
def lookAtFolder (path : String) : IO Entry := do
  return if (← (IO.FS.realPath (path ++ "/.")).toBaseIO).isOk then .folder else .sealedFolder

/-- A file that does not open is sealed; what it holds is not known. -/
def lookAtFile (path : String) : IO Entry := do
  try return .file (.octets (← IO.FS.readBinFile path).toList)
  catch _ => return .sealedFile (.octets [])

def look (place : Place) : IO (Option Entry) := do
  try
    let path ← IO.FS.realPath (Path.ofNames true place)
    if ← path.isDir then return some (← lookAtFolder path.toString)
    return some (← lookAtFile path.toString)
  catch _ => return none

/-- The disk with what is at the places that the paths pass. -/
def collect (here : Place) (paths : List String) : IO Disk := do
  let mut disk : Disk := { here := here }
  for place in paths.flatMap (passed here) do
    match ← look place with
    | some e => disk := disk.put place e
    | none => pure ()
  return disk

def restore (before : Disk) (place : Place) (e : Entry) : IO Unit := do
  let path := Path.ofNames true place
  match e, before.get? place with
  | .folder, none => IO.FS.createDir path
  | .file (.octets bytes), some (.file (.octets old)) =>
    unless bytes = old do IO.FS.writeBinFile path bytes.toByteArray
  | .file (.octets bytes), none => IO.FS.writeBinFile path bytes.toByteArray
  | _, _ => pure ()

/-- Carries back what changed, folders before what is in them. -/
def carryBack (before after : Disk) : IO Unit := do
  let entries := after.entries.mergeSort fun (p, _) (q, _) => p.length ≤ q.length
  for (place, e) in entries do restore before place e

def now : IO String := do
  let t ← Std.Time.Timestamp.now
  let clock := Std.Time.PlainDateTime.ofWallTime (t.toWallTime .zero)
  return clock.format "uuuu-MM-dd HH:mm:ss" ++ " UTC"

def configHome : IO String := do
  match ← IO.getEnv "XDG_CONFIG_HOME" with
  | some path => if Path.isAbsolute path then return path
  | none => pure ()
  return (← IO.getEnv "HOME").getD "" ++ "/.config"

def logPath? (disk : Disk) (home : String) (request : CommandLine.Request) : Option String :=
  match ConfigSession.loadOrDefault disk home request.config? with
  | .ok session => session.config.log.file
  | .error _ => none

def diskFor (here : Place) (home : String) (words : List String) : IO Disk := do
  match CommandLine.request words with
  | .error _ => return { here := here }
  | .ok request =>
    let paths := defaultConfigPath home :: request.paths
    let disk ← collect here paths
    match logPath? disk home request with
    | none => return disk
    | some log => collect here (log :: paths)

end BasRelief.Program

open BasRelief in
def main (words : List String) : IO UInt32 := do
  let here := Path.names (← IO.currentDir).toString
  let home ← Program.configHome
  let disk ← Program.diskFor here home words
  let (reply, after) := CommandLine.run .standard home (← Program.now) disk words
  Program.carryBack disk after
  IO.print reply.output
  IO.eprint reply.errors
  return reply.exitCode.toUInt32
