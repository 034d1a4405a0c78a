import BasRelief.Document.Value

/-!
# TOML tables

The tables of a document while it is read. A table that is only passed through on the way to
another is implicit, one that dotted keys make is dotted; what may be added to a table later
depends on both.
-/

namespace BasRelief.Document.Toml

mutual

inductive Table where
  | mk (isImplicit isDotted : Bool) (entries : List (String × Node))

inductive Node where
  | value (v : Value)
  | table (t : Table)
  | tables (ts : List Table)

end

namespace Table

def empty : Table := .mk false false []

def isImplicit : Table → Bool
  | .mk b _ _ => b

def isDotted : Table → Bool
  | .mk _ b _ => b

def entries : Table → List (String × Node)
  | .mk _ _ es => es

def withEntries (t : Table) (es : List (String × Node)) : Table := .mk t.isImplicit t.isDotted es

def find? (t : Table) (key : String) : Option Node := t.entries.lookup key

def add (t : Table) (key : String) (n : Node) : Table := t.withEntries (t.entries ++ [(key, n)])

def replace (t : Table) (key : String) (n : Node) : Table :=
  t.withEntries (t.entries.map fun e => if e.1 = key then (key, n) else e)

def remove (t : Table) (key : String) : Table :=
  t.withEntries (t.entries.filter fun e => e.1 ≠ key)

/-- Changes the table at the end of a path. Missing tables are made; of an array of tables the last
one is taken. Dotted keys may not pass through a table that has a header. -/
def alter (dotted : Bool) (change : Table → Option Table) : List String → Table → Option Table
  | [], t => change t
  | key :: path, t =>
    match t.find? key with
    | none => (alter dotted change path (.mk true dotted [])).map fun sub => t.add key (.table sub)
    | some (.value _) => none
    | some (.tables ts) =>
      match ts.getLast? with
      | none => none
      | some last =>
        (alter dotted change path last).map fun sub =>
          t.replace key (.tables (ts.dropLast ++ [sub]))
    | some (.table sub) =>
      if dotted && !sub.isImplicit then none
      else (alter dotted change path sub).map fun sub => t.replace key (.table sub)

/-- Adds a key with its value; a key may come once, and dotted keys do not add to other tables. -/
def addValue (path : List String) (key : String) (v : Value) (t : Table) : Option Table :=
  t |> alter true (fun t =>
    if t.isDotted = path.isEmpty then none
    else if (t.find? key).isSome then none
    else some (t.add key (.value v))) path

def open? (key : String) (t : Table) : Option Table :=
  match t.find? key with
  | none => some (t.add key (.table empty))
  | some (.table (.mk true false es)) =>
    some ((t.remove key).add key (.table (.mk false false es)))
  | _ => none

def openNext? (key : String) (t : Table) : Option Table :=
  match t.find? key with
  | none => some (t.add key (.tables [empty]))
  | some (.tables ts) => some (t.replace key (.tables (ts ++ [empty])))
  | _ => none

end Table

/-! ### Values -/

mutual

/-- A table as a value; `closed` says that it is written within one value. -/
def Table.toValue (closed : Bool) : Table → Value
  | .mk _ _ es => .table closed (entriesToValues closed es)

def Node.toValue (closed : Bool) : Node → Value
  | .value v => v
  | .table t => t.toValue closed
  | .tables ts => .array (tablesToValues closed ts)

def entriesToValues (closed : Bool) : List (String × Node) → List (Option String × Value)
  | [] => []
  | (key, n) :: rest => (some key, n.toValue closed) :: entriesToValues closed rest

def tablesToValues (closed : Bool) : List Table → List Value
  | [] => []
  | t :: rest => t.toValue closed :: tablesToValues closed rest

end

def closedTable? (pairs : List (List String × String × Value)) : Option Value :=
  (pairs.foldlM (fun t (path, key, v) => Table.addValue path key v t) Table.empty).map
    (Table.toValue true)

end BasRelief.Document.Toml
