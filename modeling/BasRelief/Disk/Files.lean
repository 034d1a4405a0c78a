import BasRelief.Disk.Basic
import BasRelief.Text.Utf8

/-!
# Files and folders

Reading and writing whole files, and making folders. An operation that fails gives no disk, so the
disk stays as it was; only `makeFolders` can leave some folders behind.
-/

namespace BasRelief.Disk

/-! ### Reading -/

def content (d : Disk) (path : String) : Except DiskError Content := do (← d.find path).opened

def readOctets (d : Disk) (path : String) : Except DiskError (List UInt8) :=
  (d.content path).map Content.bytes

/-- The text in a file (`read_to_string`). -/
def readText (d : Disk) (path : String) : Except DiskError (List Char) := do
  match Text.decode? (← d.readOctets path) with
  | some cs => return cs
  | none => throw .notText

/-! ### Writing -/

/-- The place of the file that a path leads to, and what it holds if it is there. A path that ends
in a slash, or leads to a folder, is no file to write. -/
def target (d : Disk) (path : String) : Except DiskError (Place × Option Content) := do
  match ← d.locate path with
  | .folder _ => throw .isFolder
  | .named folder name =>
    if Path.endsInSlash path then throw .isFolder
    match ← d.child folder name with
    | some .folder | some .sealedFolder => throw .isFolder
    | some (.sealedFile _) => throw .denied
    | some (.file content) => return (folder ++ [name], some content)
    | none => return (folder ++ [name], none)

/-- The disk with other octets in a file (`fs::write`). -/
def write (d : Disk) (path : String) (bytes : List UInt8) : Except DiskError Disk := do
  let (place, _) ← d.target path
  return d.put place (.file (.octets bytes))

def writeText (d : Disk) (path : String) (cs : List Char) : Except DiskError Disk :=
  d.write path (Text.encode cs)

/-- The disk after a file was opened to add to it: a missing file is there and empty. -/
def touch (d : Disk) (path : String) : Except DiskError Disk := do
  let (place, content) ← d.target path
  match content with
  | some _ => return d
  | none => return d.put place (.file (.octets []))

/-! ### Folders -/

/-- The disk with one more folder (`create_dir`). -/
def makeFolder (d : Disk) (path : String) : Except DiskError Disk := do
  match ← d.locate path with
  | .folder _ => throw .alreadyExists
  | .named folder name =>
    match ← d.child folder name with
    | some _ => throw .alreadyExists
    | none => return d.put (folder ++ [name]) .folder

/-- What came of making a folder: a failure does not count where the folder is there. -/
def settle (d : Disk) (path : String) : Except DiskError Disk → Disk × Except DiskError Unit
  | .ok d => (d, .ok ())
  | .error e => if d.isFolder path then (d, .ok ()) else (d, .error e)

/-- Makes the folder with the given names, the last one first, and the folders above it that are
missing. -/
def makeFolders (d : Disk) (absolute : Bool) : List String → Disk × Except DiskError Unit
  | [] => (d, .ok ())
  | name :: above =>
    let path := Path.ofNames absolute (name :: above).reverse
    match d.makeFolder path with
    | .error .notFound =>
      match makeFolders d absolute above with
      | (d, .ok ()) => d.settle path (d.makeFolder path)
      | failed => failed
    | result => d.settle path result

/-- Makes the missing folders above a path (`create_dir_all`). -/
def makeParents (d : Disk) (path : String) : Disk × Except DiskError Unit :=
  d.makeFolders (Path.isAbsolute path) (Path.steps path).dropLast.reverse

/-! ### Laws -/

theorem child_eq_ok_iff {d : Disk} {folder : Place} {name : String} {found : Option Entry} :
    d.child folder name = .ok found ↔
      name.utf8ByteSize ≤ maxNameSize ∧ d.get? (folder ++ [name]) = found := by
  unfold child
  split
  · exact iff_of_false (fun h => by cases h) (by omega)
  · simp only [Except.ok.injEq]
    exact ⟨fun h => ⟨by omega, h⟩, fun h => h.2⟩

theorem child_eq {d : Disk} {folder : Place} {name : String} {found : Option Entry}
    (h : d.child folder name = .ok found) : d.get? (folder ++ [name]) = found :=
  (child_eq_ok_iff.mp h).2

theorem isFolder_iff {d : Disk} {path : String} :
    d.isFolder path = true ↔ ∃ e, d.find path = .ok e ∧ e.isFolder = true := by
  unfold isFolder
  cases d.find path with
  | error e => simp
  | ok e => simp

theorem find_of_file? {d : Disk} {path : String} {content : Content}
    (h : d.file? path = some content) : d.find path = .ok (.file content) := by
  unfold file? at h
  split at h
  · rw [‹d.find path = _›, Option.some.inj h]
  · cases h

theorem target_eq_ok {d : Disk} {path : String} {place : Place} {content : Option Content}
    (h : d.target path = .ok (place, content)) :
    ∃ folder name, d.locate path = .ok (.named folder name) ∧ Path.endsInSlash path = false ∧
      place = folder ++ [name] ∧ d.child folder name = .ok (content.map .file) := by
  unfold target at h
  cases hl : d.locate path with
  | error e =>
    rw [hl] at h
    cases h
  | ok goal =>
    rw [hl] at h
    cases goal with
    | folder p => cases h
    | named folder name =>
      simp only [bind, Except.bind] at h
      by_cases hslash : Path.endsInSlash path = true
      · rw [if_pos hslash] at h
        cases h
      · rw [if_neg hslash] at h
        have hfile := Bool.of_not_eq_true hslash
        cases hc : d.child folder name with
        | error e =>
          rw [hc] at h
          cases h
        | ok found =>
          rw [hc] at h
          match found with
          | some .folder => cases h
          | some .sealedFolder => cases h
          | some (.sealedFile c) => cases h
          | some (.file c) =>
            cases h
            exact ⟨folder, name, rfl, hfile, rfl, hc⟩
          | none =>
            cases h
            exact ⟨folder, name, rfl, hfile, rfl, hc⟩

theorem get?_target {d : Disk} {path : String} {place : Place} {content : Option Content}
    (h : d.target path = .ok (place, content)) :
    place ≠ [] ∧ d.get? place = content.map .file := by
  obtain ⟨folder, name, _, _, rfl, hchild⟩ := target_eq_ok h
  exact ⟨List.append_ne_nil_of_right_ne_nil _ (List.cons_ne_nil _ _), child_eq hchild⟩

theorem eq_put_of_write {d d' : Disk} {path : String} {bytes : List UInt8}
    (h : d.write path bytes = .ok d') :
    ∃ place content, d.target path = .ok (place, content) ∧
      d' = d.put place (.file (.octets bytes)) := by
  unfold write at h
  cases ht : d.target path with
  | error e => rw [ht] at h; cases h
  | ok found =>
    rw [ht] at h
    obtain ⟨place, content⟩ := found
    cases h
    exact ⟨place, content, rfl, rfl⟩

end BasRelief.Disk
