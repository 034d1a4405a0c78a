import BasRelief.Document.Toml.Scalar
import BasRelief.Document.Toml.Text
import BasRelief.Document.Toml.Tree

/-!
# Reading TOML

A document is a sequence of lines: comments, table headers, and keys with values. Readers take a
list of characters and give what they read with what follows; loops are bounded by the length of
the input.
-/

namespace BasRelief.Document.Toml

/-! ### Comments and line ends -/

def skipComment (cs : List Char) : List Char := cs.dropWhile isPlain

def endOfLine? (cs : List Char) : Option (List Char) :=
  let cs := match skipBlanks cs with
    | '#' :: rest => skipComment rest
    | rest => rest
  match cs with
  | [] => some []
  | cs => lineEnd? cs

def skipFiller : Nat → List Char → Option (List Char)
  | 0, cs => some cs
  | fuel + 1, cs =>
    match skipBlanks cs with
    | '#' :: rest => (lineEnd? (skipComment rest)).bind (skipFiller fuel)
    | '\n' :: rest => skipFiller fuel rest
    | '\r' :: rest => (lineEnd? ('\r' :: rest)).bind (skipFiller fuel)
    | rest => some rest

/-! ### Keys -/

/-- The most keys in a dotted key, and the most open brackets, less one. -/
def maxDepth : Nat := 79

def isBareChar (c : Char) : Bool := c.isAlphanum || c = '-' || c = '_'

def simpleKey? (cs : List Char) : Option (String × List Char) :=
  match cs with
  | '"' :: rest => (basic cs.length rest).map fun (text, rest) => (String.ofList text, rest)
  | '\'' :: rest => (literal rest).map fun (text, rest) => (String.ofList text, rest)
  | cs =>
    let bare := cs.takeWhile isBareChar
    if bare.isEmpty then none else some (String.ofList bare, cs.drop bare.length)

def keys? : Nat → List Char → Option (List String × List Char)
  | 0, _ => none
  | fuel + 1, cs =>
    (simpleKey? (skipBlanks cs)).bind fun (key, rest) =>
      match skipBlanks rest with
      | '.' :: rest => (keys? fuel rest).map fun (keys, rest) => (key :: keys, rest)
      | rest => some ([key], rest)

def path? (cs : List Char) : Option (List String × String × List Char) :=
  match keys? (cs.length + 1) cs with
  | some (keys, rest) =>
    if maxDepth < keys.length then none
    else keys.getLast?.map fun last => (keys.dropLast, last, rest)
  | none => none

/-! ### Values -/

abbrev ValueReader := List Char → Option (Value × List Char)

/-- The items of an array after its bracket; a separator may stand before the closing bracket. -/
def items? (value : ValueReader) : Nat → List Char → Option (List Value × List Char)
  | 0, _ => none
  | fuel + 1, cs => do
    match ← skipFiller cs.length cs with
    | ']' :: rest => return ([], rest)
    | cs =>
      let (v, rest) ← value cs
      match ← skipFiller rest.length rest with
      | ',' :: rest =>
        let (vs, rest) ← items? value fuel rest
        return (v :: vs, rest)
      | ']' :: rest => return ([v], rest)
      | _ => none

def pair? (value : ValueReader) (cs : List Char) :
    Option ((List String × String × Value) × List Char) := do
  let (path, key, rest) ← path? cs
  match rest with
  | '=' :: rest =>
    let (v, rest) ← value (skipBlanks rest)
    return ((path, key, v), rest)
  | _ => none

def pairs? (value : ValueReader) :
    Nat → List Char → Option (List (List String × String × Value) × List Char)
  | 0, _ => none
  | fuel + 1, cs => do
    let (p, rest) ← pair? value cs
    match skipBlanks rest with
    | ',' :: rest =>
      let (ps, rest) ← pairs? value fuel rest
      return (p :: ps, rest)
    | '\x7d' :: rest => return ([p], rest)
    | _ => none

def closedTableOf? (value : ValueReader) (cs : List Char) : Option (Value × List Char) :=
  match skipBlanks cs with
  | '\x7d' :: rest => (closedTable? []).map fun v => (v, rest)
  | cs => (pairs? value cs.length cs).bind fun (ps, rest) =>
      (closedTable? ps).map fun v => (v, rest)

/-- A scalar without quotes; a date may be followed by a blank and a time. -/
def run? (cs : List Char) : Option (Value × List Char) :=
  let run := cs.takeWhile isScalarChar
  let rest := cs.drop run.length
  match isDate run, rest with
  | true, ' ' :: more =>
    let time := more.takeWhile isScalarChar
    if isZonedTime time then some (.moment, more.drop time.length) else some (.moment, rest)
  | _, _ => (scalar? run).map fun v => (v, rest)

/-- A value that opens at most `depth` brackets within each other. -/
def value? : Nat → ValueReader
  | depth, cs =>
    match cs with
    | '"' :: _ => (text? cs).map fun (text, rest) => (.text (String.ofList text), rest)
    | '\'' :: _ => (text? cs).map fun (text, rest) => (.text (String.ofList text), rest)
    | '[' :: rest =>
      match depth with
      | 0 => none
      | depth + 1 =>
        (items? (value? depth) (rest.length + 1) rest).map fun (vs, rest) => (.array vs, rest)
    | '\x7b' :: rest =>
      match depth with
      | 0 => none
      | depth + 1 => closedTableOf? (value? depth) rest
    | cs => run? cs

/-! ### Documents -/

/-- The tables so far, and the path of the table that keys are added to. -/
structure Progress where
  root : Table := .empty
  path : List String := []

namespace Progress

def addValue (p : Progress) (path : List String) (key : String) (v : Value) : Option Progress :=
  (p.root.alter false (Table.addValue path key v) p.path).map fun root => { p with root := root }

def header (p : Progress) (isArray : Bool) (path : List String) (key : String) : Option Progress :=
  let start := if isArray then Table.openNext? key else Table.open? key
  (p.root.alter false start path).map fun root => ⟨root, path ++ [key]⟩

end Progress

def header? (p : Progress) (cs : List Char) : Option (Progress × List Char) := do
  let isArray := cs.head? == some '['
  let (path, key, rest) ← path? (if isArray then cs.drop 1 else cs)
  let rest ← match isArray, rest with
    | true, ']' :: ']' :: rest => some rest
    | false, ']' :: rest => some rest
    | _, _ => none
  let p ← p.header isArray path key
  let rest ← endOfLine? rest
  return (p, rest)

def keyLine? (p : Progress) (cs : List Char) : Option (Progress × List Char) := do
  let ((path, key, v), rest) ← pair? (value? maxDepth) cs
  let rest ← endOfLine? rest
  let p ← p.addValue path key v
  return (p, rest)

def document? : Nat → Progress → List Char → Option Progress
  | 0, _, _ => none
  | fuel + 1, p, cs =>
    match skipBlanks cs with
    | [] => some p
    | '#' :: rest => (endOfLine? ('#' :: rest)).bind (document? fuel p)
    | '\n' :: rest => document? fuel p rest
    | '\r' :: rest => (lineEnd? ('\r' :: rest)).bind (document? fuel p)
    | '[' :: rest => (header? p rest).bind fun (p, rest) => document? fuel p rest
    | cs => (keyLine? p cs).bind fun (p, rest) => document? fuel p rest

/-- The value of a document; a mark of the byte order may stand in front. -/
def read? (cs : List Char) : Option Value :=
  let cs := if cs.head? = some '\uFEFF' then cs.drop 1 else cs
  (document? (cs.length + 1) {} cs).map fun p => p.root.toValue false

end BasRelief.Document.Toml
