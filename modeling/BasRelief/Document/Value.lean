/-!
# Document values

What a configuration or report document says, before it is matched against a type. Tables keep
their entries in order.
-/

namespace BasRelief.Document

/-- A value of a document. A literal that no type can hold, such as a number out of range, is
`unreadable`: it does no harm where it is ignored. -/
inductive Value where
  | null
  | bool (b : Bool)
  | integer (n : Int)
  | float (x : Float)
  | text (s : String)
  | array (items : List Value)
  /-- The entries in order; a key that is no text is missing. A table is `closed` when it is
  written within one value. -/
  | table (closed : Bool) (entries : List (Option String × Value))
  | moment
  | unreadable

inductive DecodeError where
  | expected (what : String)
  | missing (field : String)
  | duplicate (field : String)
  | unknownVariant (name : String)
  | length (count : Nat)
  | outOfRange (what : String)
  deriving DecidableEq, Repr

namespace DecodeError

def message : DecodeError → String
  | expected what => "expected " ++ what
  | missing field => "missing field " ++ field
  | duplicate field => "duplicate field " ++ field
  | unknownVariant name => "unknown variant " ++ name
  | length _ => "wrong number of elements"
  | outOfRange what => "number out of range for " ++ what

end DecodeError

namespace Value

def record (entries : List (String × Value)) : Value :=
  table true (entries.map fun (key, v) => (some key, v))

def ofOption {α : Type} (encode : α → Value) : Option α → Value
  | some a => encode a
  | none => null

def natural (n : Nat) : Value := integer n

end Value
end BasRelief.Document
