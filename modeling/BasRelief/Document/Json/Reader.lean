import BasRelief.Document.Json.Number
import BasRelief.Document.Json.Token

/-!
# Reading JSON

The second half of reading JSON: tokens become one value. `step` takes one token at a time and
keeps the arrays and tables that are still open on a stack.
-/

namespace BasRelief.Document.Json

/-- An open array or table with its elements in reverse. A table waits for the value of a key. -/
inductive Frame where
  | array (items : List Value)
  | table (entries : List (Option String × Value)) (key : Option String)

inductive Expecting where
  | value
  | valueOrClose
  | key (entries : List (Option String × Value)) (mayClose : Bool)
  | colon (entries : List (Option String × Value)) (key : Option String)
  /-- A separator or the end of the innermost open array or table. -/
  | next
  | nothing (result : Value)

structure ReadState where
  expecting : Expecting := .value
  stack : List Frame := []

def complete (v : Value) : List Frame → ReadState
  | [] => ⟨.nothing v, []⟩
  | .array items :: rest => ⟨.next, .array (v :: items) :: rest⟩
  | .table entries key :: rest => ⟨.next, .table ((key, v) :: entries) none :: rest⟩

def wordValue? (cs : List Char) : Option Value :=
  match String.ofList cs with
  | "null" => some .null
  | "true" => some (.bool true)
  | "false" => some (.bool false)
  | _ => (lexeme? cs).map Lexeme.value

def beginValue (stack : List Frame) : Token → Option ReadState
  | .openArray => some ⟨.valueOrClose, .array [] :: stack⟩
  | .openTable => some ⟨.key [] true, stack⟩
  | .text (some s) => some (complete (.text s) stack)
  | .text none => some (complete .unreadable stack)
  | .word cs => (wordValue? cs).map fun v => complete v stack
  | _ => none

def step (s : ReadState) (t : Token) : Option ReadState :=
  match s.expecting, t with
  | .value, t => beginValue s.stack t
  | .valueOrClose, .closeArray => some (complete (.array []) s.stack.tail)
  | .valueOrClose, t => beginValue s.stack t
  | .key entries _, .text k => some ⟨.colon entries k, s.stack⟩
  | .key _ true, .closeTable => some (complete (.table true []) s.stack)
  | .colon entries k, .colon => some ⟨.value, .table entries k :: s.stack⟩
  | .next, t =>
    match s.stack, t with
    | .array items :: rest, .comma => some ⟨.value, .array items :: rest⟩
    | .array items :: rest, .closeArray => some (complete (.array items.reverse) rest)
    | .table entries _ :: rest, .comma => some ⟨.key entries false, rest⟩
    | .table entries _ :: rest, .closeTable => some (complete (.table true entries.reverse) rest)
    | _, _ => none
  | _, _ => none

def valueOfTokens? (ts : List Token) : Option Value :=
  match ts.foldlM step {} with
  | some ⟨.nothing v, _⟩ => some v
  | _ => none

def read? (cs : List Char) : Option Value := (tokens? cs).bind valueOfTokens?

end BasRelief.Document.Json
