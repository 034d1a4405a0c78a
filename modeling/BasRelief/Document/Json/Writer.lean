import BasRelief.Document.Value
import BasRelief.Number.Double
import BasRelief.Text.Quoted

/-!
# Writing JSON

A value as JSON text, on one line or with two blanks of indent per level. Numbers have the fewest
digits that read back; doubles always show a point or a power of ten, and those that are not
finite are written as null.
-/

namespace BasRelief.Document.Json

/-! ### Scalars -/

/-- A coefficient and a power of ten: plain from `10 ^ -5` up to below `10 ^ 16`. -/
def magnitudeText (n : Nat) (e : Int) : List Char :=
  let top := Decimal.length n + e
  if -4 ≤ top ∧ top ≤ 16 then Decimal.pointed n e else Decimal.scientific n e

def floatText (x : Float) : List Char :=
  match Binary.ofFloat x with
  | .finite negative m e =>
    let (n, power) := Double.shortest .even m e
    Decimal.signed negative (magnitudeText n power)
  | _ => ['n', 'u', 'l', 'l']

def integerText (n : Int) : List Char := Decimal.signed (n < 0) (Decimal.digits n.natAbs)

def controlEscape (n : Nat) : List Char :=
  ['\\', 'u', '0', '0', Text.hexDigit (n / 16), Text.hexDigit (n % 16)]

def textChar (c : Char) : List Char :=
  match c with
  | '"' => ['\\', '"']
  | '\\' => ['\\', '\\']
  | '\x08' => ['\\', 'b']
  | '\x0c' => ['\\', 'f']
  | '\n' => ['\\', 'n']
  | '\r' => ['\\', 'r']
  | '\t' => ['\\', 't']
  | c => if c.toNat < 0x20 then controlEscape c.toNat else [c]

def textLiteral (s : String) : List Char := '"' :: s.toList.flatMap textChar ++ ['"']

/-! ### Layout -/

/-- How arrays and tables are laid out: what stands before the element or the bracket at a depth,
and after a key. -/
structure Layout where
  gap : Nat → List Char
  afterKey : List Char

def Layout.compact : Layout := ⟨fun _ => [], [':']⟩

def Layout.indented : Layout := ⟨fun depth => '\n' :: List.replicate (2 * depth) ' ', [':', ' ']⟩

def bracketed (layout : Layout) (depth : Nat) (opening closing : Char) (items : List (List Char)) :
    List Char :=
  match items with
  | [] => [opening, closing]
  | item :: rest =>
    opening :: (layout.gap (depth + 1) ++ item ++
      rest.flatMap (fun item => ',' :: layout.gap (depth + 1) ++ item)) ++
      layout.gap depth ++ [closing]

mutual

def write (layout : Layout) (depth : Nat) : Value → List Char
  | .null => ['n', 'u', 'l', 'l']
  | .bool true => ['t', 'r', 'u', 'e']
  | .bool false => ['f', 'a', 'l', 's', 'e']
  | .integer n => integerText n
  | .float x => floatText x
  | .text s => textLiteral s
  | .array items => bracketed layout depth '[' ']' (writeItems layout (depth + 1) items)
  | .table _ entries =>
    bracketed layout depth '\x7b' '\x7d' (writeEntries layout (depth + 1) entries)
  | .moment => ['n', 'u', 'l', 'l']
  | .unreadable => ['n', 'u', 'l', 'l']

def writeItems (layout : Layout) (depth : Nat) : List Value → List (List Char)
  | [] => []
  | v :: vs => write layout depth v :: writeItems layout depth vs

def writeEntries (layout : Layout) (depth : Nat) :
    List (Option String × Value) → List (List Char)
  | [] => []
  | (key, v) :: rest =>
    (textLiteral (key.getD "") ++ layout.afterKey ++ write layout depth v) ::
      writeEntries layout depth rest

end

def compact (v : Value) : String := String.ofList (write .compact 0 v)

def pretty (v : Value) : String := String.ofList (write .indented 0 v)

end BasRelief.Document.Json
