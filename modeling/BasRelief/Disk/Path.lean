import BasRelief.Text.Lines

/-!
# Paths

A path is a text of names with slashes between them. A name that is one point stands for the folder
itself, two points stand for the folder above.
-/

namespace BasRelief.Path

def isAbsolute (path : String) : Bool := path.toList.head? = some '/'

/-- A path that ends in a slash can only mean a folder. -/
def endsInSlash (path : String) : Bool := path.toList.getLast? = some '/'

def names (path : String) : List String :=
  ((Text.pieces '/' path.toList).map fun (piece, _) => String.ofList piece).filter (· ≠ "")

/-- The names without those that stand for the folder itself. One in front of a relative path is
kept. -/
def steps (path : String) : List String :=
  match names path with
  | [] => []
  | first :: rest =>
    let rest := rest.filter (· ≠ ".")
    if first = "." && isAbsolute path then rest else first :: rest

def ofNames (absolute : Bool) (names : List String) : String :=
  (if absolute then "/" else "") ++ "/".intercalate names

def fileName? (path : String) : Option String :=
  match (steps path).getLast? with
  | some name => if name = "." || name = ".." then none else some name
  | none => none

/-- What follows the last point of a name, if something stands before that point. -/
def extensionOf? (name : List Char) : Option (List Char) :=
  let after := (name.reverse.takeWhile (· ≠ '.')).reverse
  if after.length + 1 < name.length then some after else none

def extension? (path : String) : Option String :=
  (fileName? path).bind fun name => (extensionOf? name.toList).map String.ofList

/-! ### Laws -/

theorem extensionOf?_append (before after : List Char) (hb : before ≠ [])
    (ha : ∀ c ∈ after, c ≠ '.') : extensionOf? (before ++ '.' :: after) = some after := by
  have taken : (before ++ '.' :: after).reverse.takeWhile (· ≠ '.') = after.reverse := by
    simp only [List.reverse_append, List.reverse_cons, List.append_assoc]
    rw [List.takeWhile_append_of_pos (by simpa using ha)]
    simp
  have longer : after.length + 1 < (before ++ '.' :: after).length := by
    have := List.length_pos_iff.2 hb
    simp
    omega
  simp only [extensionOf?, taken, List.reverse_reverse, if_pos longer]

end BasRelief.Path
