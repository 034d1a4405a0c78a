import BasRelief.Disk.Path
import BasRelief.Image.Color

/-!
# Disks

A disk holds folders and files at places, and one folder in which relative paths start. An entry
may be sealed against the program: no name is looked up in a sealed folder, and a sealed file is
not opened. `get?` is the view through which every operation is described: `get?_put_self` and
`get?_put_of_ne` say what a change does to it.
-/

namespace BasRelief

inductive Content where
  | octets (bytes : List UInt8)
  | picture (image : Image)

namespace Content

/-- The eight octets that every picture file starts with. -/
def pictureSignature : List UInt8 := [137, 80, 78, 71, 13, 10, 26, 10]

/-- The octets; of a picture only the first are known. -/
def bytes : Content → List UInt8
  | octets bytes => bytes
  | picture _ => pictureSignature

end Content

inductive Entry where
  | folder
  | file (content : Content)
  | sealedFolder
  | sealedFile (content : Content)

/-- The names from the root to an entry. -/
abbrev Place := List String

structure Disk where
  entries : List (Place × Entry) := []
  here : Place := []

inductive DiskError where
  | notFound
  | denied
  | alreadyExists
  | notFolder
  | isFolder
  | nameTooLong
  | nulInName
  | notText
  deriving DecidableEq, Repr

namespace DiskError

def message : DiskError → String
  | notFound => "No such file or directory (os error 2)"
  | denied => "Permission denied (os error 13)"
  | alreadyExists => "File exists (os error 17)"
  | notFolder => "Not a directory (os error 20)"
  | isFolder => "Is a directory (os error 21)"
  | nameTooLong => "File name too long (os error 36)"
  | nulInName => "file name contained an unexpected NUL byte"
  | notText => "stream did not contain valid UTF-8"

end DiskError

namespace Entry

def isFolder : Entry → Bool
  | folder | sealedFolder => true
  | file _ | sealedFile _ => false

/-- What opening an entry to read it gives. -/
def opened : Entry → Except DiskError Content
  | folder => .error .isFolder
  | file content => .ok content
  | sealedFolder | sealedFile _ => .error .denied

end Entry

namespace Disk

def get? (d : Disk) (place : Place) : Option Entry :=
  if place = [] then some .folder else d.entries.lookup place

def put (d : Disk) (place : Place) (e : Entry) : Disk :=
  { d with entries := (place, e) :: d.entries.filter fun (other, _) => other ≠ place }

/-! ### Following a path -/

def maxNameSize : Nat := 255

def maxPathSize : Nat := 4095

/-- Whether a folder is at a place, sealed or not. -/
def hasFolder (d : Disk) (place : Place) : Bool := (d.get? place).any Entry.isFolder

/-- Whether the folder at a place is sealed. -/
def isSealed (d : Disk) (place : Place) : Bool := d.get? place matches some .sealedFolder

/-- What has a name in a folder. -/
def child (d : Disk) (folder : Place) (name : String) : Except DiskError (Option Entry) :=
  if maxNameSize < name.utf8ByteSize then .error .nameTooLong
  else .ok (d.get? (folder ++ [name]))

/-- What a name stands for: a folder that was passed, or a name in a folder. -/
inductive Goal where
  | folder (place : Place)
  | named (folder : Place) (name : String)
  deriving DecidableEq, Repr

def goal (folder : Place) (name : String) : Goal :=
  if name = "." then .folder folder
  else if name = ".." then .folder folder.dropLast
  else .named folder name

/-- The folder to which names lead. Every name is looked up, also one that stands for the folder
itself or the folder above. -/
def descend (d : Disk) : Place → List String → Except DiskError Place
  | folder, [] => .ok folder
  | folder, name :: rest =>
    if d.isSealed folder then .error .denied
    else
      match goal folder name with
      | .folder place => descend d place rest
      | .named folder name =>
        match d.child folder name with
        | .error e => .error e
        | .ok none => .error .notFound
        | .ok (some e) => if e.isFolder then descend d (folder ++ [name]) rest else .error .notFolder

/-- Where a path starts. -/
def start (d : Disk) (path : String) : Place := if Path.isAbsolute path then [] else d.here

def locate (d : Disk) (path : String) : Except DiskError Goal :=
  if path.toList.contains '\x00' then .error .nulInName
  else if path = "" then .error .notFound
  else if maxPathSize < path.utf8ByteSize then .error .nameTooLong
  else do
    let folder ← d.descend (d.start path) (Path.names path).dropLast
    match (Path.names path).getLast? with
    | none => return .folder folder
    | some name => if d.isSealed folder then throw .denied else return goal folder name

/-- The folder at a place that a path has led to. -/
def folderAt (d : Disk) (place : Place) : Entry :=
  if d.isSealed place then .sealedFolder else .folder

def find (d : Disk) (path : String) : Except DiskError Entry := do
  match ← d.locate path with
  | .folder place => return d.folderAt place
  | .named folder name =>
    match ← d.child folder name with
    | none => throw .notFound
    | some e => if Path.endsInSlash path && !e.isFolder then throw .notFolder else return e

/-- Whether something is found at a path. Whatever keeps it from being found counts as a no, as in
`Path::exists`. -/
def exists? (d : Disk) (path : String) : Bool := (d.find path).isOk

def isFolder (d : Disk) (path : String) : Bool :=
  match d.find path with
  | .ok e => e.isFolder
  | .error _ => false

/-- What is in the file at a path, if there is one that opens. -/
def file? (d : Disk) (path : String) : Option Content :=
  match d.find path with
  | .ok (.file content) => some content
  | _ => none

/-! ### Laws -/

theorem get?_put_self (d : Disk) {place : Place} (h : place ≠ []) (e : Entry) :
    (d.put place e).get? place = some e := by
  simp [get?, put, h]

theorem lookup_filter_ne {κ β : Type} [DecidableEq κ] [BEq κ] [LawfulBEq κ] (place other : κ)
    (h : other ≠ place) (entries : List (κ × β)) :
    (entries.filter fun (p, _) => p ≠ place).lookup other = entries.lookup other := by
  induction entries with
  | nil => rfl
  | cons entry rest ih =>
    obtain ⟨p, e⟩ := entry
    by_cases hp : p = place
    · subst hp
      have different : (other == p) = false := by simpa using h
      simpa [List.lookup_cons, different] using ih
    · simp only [List.filter_cons, ne_eq, hp, not_false_eq_true, decide_true, if_true,
        List.lookup_cons, ih]

theorem get?_put_of_ne (d : Disk) {place other : Place} (h : other ≠ place) (e : Entry) :
    (d.put place e).get? other = d.get? other := by
  by_cases root : other = []
  · simp [get?, root]
  · have different : (other == place) = false := by simpa using h
    simp only [get?, put, root, if_false, List.lookup_cons, different]
    exact lookup_filter_ne place other h d.entries

@[simp] theorem here_put (d : Disk) (place : Place) (e : Entry) : (d.put place e).here = d.here := rfl

end Disk
end BasRelief
