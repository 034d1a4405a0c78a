import BasRelief.Document.Value

/-!
# Matching values against types

How numbers, texts, lists, records and choices are taken from document values. A record is a table
with known keys, or an array of its fields in order. Unknown keys are passed over; a field that is
given twice is refused.
-/

namespace BasRelief.Document

structure Dialect where
  /-- An array for a record may be longer than the record. -/
  longArrays : Bool
  /-- A date or a time counts as a record of unknown keys. -/
  momentRecords : Bool
  /-- What may stand with the name of a choice that carries nothing. -/
  isNothing : Value → Bool

/-- JSON takes arrays of the exact length, and null for nothing. -/
def Dialect.json : Dialect where
  longArrays := false
  momentRecords := false
  isNothing
    | .null => true
    | _ => false

/-- TOML has no null; an empty array or table stands for nothing. -/
def Dialect.toml : Dialect where
  longArrays := true
  momentRecords := true
  isNothing
    | .array items => items.isEmpty
    | .table _ entries => entries.isEmpty
    | _ => false

abbrev Decoder (α : Type) := Dialect → Value → Except DecodeError α

namespace Decoder

/-! ### Scalars and lists -/

def float : Decoder Float
  | _, .integer n => .ok (Float.ofInt n)
  | _, .float x => .ok x
  | _, _ => .error (.expected "number")

/-- A natural number below a bound; a double is never one. -/
def naturalBelow (bound : Nat) : Decoder Nat
  | _, .integer n =>
    if 0 ≤ n ∧ n < bound then .ok n.toNat else .error (.outOfRange "unsigned integer")
  | _, _ => .error (.expected "unsigned integer")

def natural : Decoder Nat := naturalBelow (Nat.pow 2 64)

def octet : Decoder UInt8 := fun d v => (naturalBelow 256 d v).map UInt8.ofNat

def bool : Decoder Bool
  | _, .bool b => .ok b
  | _, _ => .error (.expected "boolean")

def text : Decoder String
  | _, .text s => .ok s
  | _, _ => .error (.expected "text")

def option {α : Type} (decode : Decoder α) : Decoder (Option α)
  | _, .null => .ok none
  | d, v => (decode d v).map some

def list {α : Type} (decode : Decoder α) : Decoder (List α)
  | d, .array items => items.mapM (decode d)
  | _, _ => .error (.expected "array")

def pair {α β : Type} (first : Decoder α) (second : Decoder β) : Decoder (α × β)
  | d, .array [a, b] => do return (← first d a, ← second d b)
  | _, _ => .error (.expected "array of two")

/-! ### Choices -/

def variant : Value → Except DecodeError (String × Option Value)
  | .text name => .ok (name, none)
  | .table closed entries =>
    match entries with
    | (some name, payload) :: rest =>
      if closed && !rest.isEmpty then .error (.length (rest.length + 1))
      else .ok (name, some payload)
    | _ => .error (.expected "name of a choice")
  | _ => .error (.expected "text or table")

def choice {α : Type} (names : List (String × α)) : Decoder α := fun d v => do
  let (name, payload) ← variant v
  match names.lookup name, payload with
  | none, _ => .error (.unknownVariant name)
  | some a, none => .ok a
  | some a, some p => if d.isNothing p then .ok a else .error (.expected "nothing")

end Decoder

/-! ### Records -/

structure Field where
  key : String
  also : Option String := none
  deriving DecidableEq, Repr

structure Record where
  values : List (String × Value)
  /-- The fields came in order, without keys. -/
  positional : Bool

namespace Record

def fieldOf? (fields : List Field) (key : String) : Option Field :=
  fields.find? fun f => f.key = key || f.also = some key

def known (fields : List Field) (entries : List (Option String × Value)) :
    Except DecodeError (List (String × Value)) :=
  entries.foldlM (fun values (key, v) =>
    match key with
    | none => .error (.expected "key")
    | some key =>
      match fieldOf? fields key with
      | none => .ok values
      | some f =>
        if (values.lookup f.key).isSome then .error (.duplicate f.key)
        else .ok (values ++ [(f.key, v)])) []

def of (fields : List Field) (d : Dialect) : Value → Except DecodeError Record
  | .table _ entries => (known fields entries).map fun values => ⟨values, false⟩
  | .array items =>
    if fields.length < items.length && !d.longArrays then .error (.length items.length)
    else .ok ⟨(fields.map Field.key).zip items, true⟩
  | .moment => if d.momentRecords then .ok ⟨[], false⟩ else .error (.expected "record")
  | _ => .error (.expected "record")

def required {α : Type} (r : Record) (d : Dialect) (key : String) (decode : Decoder α) :
    Except DecodeError α :=
  match r.values.lookup key with
  | some v => decode d v
  | none => .error (.missing key)

/-- A field that may be null, and may be left out of a table. -/
def optional {α : Type} (r : Record) (d : Dialect) (key : String) (decode : Decoder α) :
    Except DecodeError (Option α) :=
  match r.values.lookup key with
  | some v => decode.option d v
  | none => if r.positional then .error (.missing key) else .ok none

def orDefault {α : Type} (r : Record) (d : Dialect) (key : String) (default : α)
    (decode : Decoder α) : Except DecodeError α :=
  match r.values.lookup key with
  | some v => decode d v
  | none => .ok default

end Record
end BasRelief.Document
