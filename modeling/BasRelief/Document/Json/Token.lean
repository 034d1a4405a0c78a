import BasRelief.Text.Quoted

/-!
# JSON tokens

The first half of reading JSON: characters become brackets, separators, texts and words. A word is
a run of other characters; whether it is a number is decided later. `scan` takes one character at
a time.
-/

namespace BasRelief.Document.Json

/-- A token; a text with an escaped surrogate that has no partner has no content. -/
inductive Token where
  | openArray
  | closeArray
  | openTable
  | closeTable
  | comma
  | colon
  | text (content : Option String)
  | word (cs : List Char)
  deriving DecidableEq, Repr

inductive Unit16 where
  | char (c : Char)
  | code (n : Nat)
  deriving DecidableEq, Repr

def joinSurrogates (high low : Nat) : Char :=
  Char.ofNat (0x10000 + (high - 0xD800) * 0x400 + (low - 0xDC00))

def isHighSurrogate (n : Nat) : Bool := 0xD800 ≤ n && n ≤ 0xDBFF

def isLowSurrogate (n : Nat) : Bool := 0xDC00 ≤ n && n ≤ 0xDFFF

/-- The characters of a text; a surrogate must have its partner right after it. -/
def joinUnits : List Unit16 → Option (List Char)
  | [] => some []
  | .char c :: rest => (joinUnits rest).map (c :: ·)
  | .code high :: .code low :: rest =>
    if isHighSurrogate high then
      if isLowSurrogate low then (joinUnits rest).map (joinSurrogates high low :: ·) else none
    else if isLowSurrogate high then none
    else (joinUnits (.code low :: rest)).map (Char.ofNat high :: ·)
  | .code n :: rest =>
    if isHighSurrogate n || isLowSurrogate n then none
    else (joinUnits rest).map (Char.ofNat n :: ·)

/-! ### Scanning -/

/-- Where the scanner is; what it has gathered is in reverse. -/
inductive Mode where
  | between
  | word (gathered : List Char)
  | text (gathered : List Unit16)
  | escape (gathered : List Unit16)
  | code (gathered : List Unit16) (digits value : Nat)
  deriving DecidableEq, Repr

structure Scanner where
  mode : Mode := .between
  tokens : List Token := []
  deriving DecidableEq, Repr

def isBlank (c : Char) : Bool := c = ' ' || c = '\n' || c = '\t' || c = '\r'

def punctuation? : Char → Option Token
  | '[' => some .openArray
  | ']' => some .closeArray
  | '\x7b' => some .openTable
  | '\x7d' => some .closeTable
  | ',' => some .comma
  | ':' => some .colon
  | _ => none

def hexValue? (c : Char) : Option Nat :=
  if '0' ≤ c ∧ c ≤ '9' then some (c.toNat - 48)
  else if 'a' ≤ c ∧ c ≤ 'f' then some (c.toNat - 87)
  else if 'A' ≤ c ∧ c ≤ 'F' then some (c.toNat - 55)
  else none

def escaped? : Char → Option Char
  | '"' => some '"'
  | '\\' => some '\\'
  | '/' => some '/'
  | 'b' => some '\x08'
  | 'f' => some '\x0c'
  | 'n' => some '\n'
  | 'r' => some '\r'
  | 't' => some '\t'
  | _ => none

def textToken (gathered : List Unit16) : Token :=
  .text ((joinUnits gathered.reverse).map String.ofList)

def scanOutside (tokens : List Token) (c : Char) : Scanner :=
  if isBlank c then ⟨.between, tokens⟩
  else if c = '"' then ⟨.text [], tokens⟩
  else match punctuation? c with
    | some t => ⟨.between, t :: tokens⟩
    | none => ⟨.word [c], tokens⟩

def endsWord (c : Char) : Bool := isBlank c || c = '"' || (punctuation? c).isSome

/-- One character; a control character in a text and an unknown escape are refused. -/
def scan (s : Scanner) (c : Char) : Option Scanner :=
  match s.mode with
  | .between => some (scanOutside s.tokens c)
  | .word cs =>
    if endsWord c then some (scanOutside (.word cs.reverse :: s.tokens) c)
    else some { s with mode := .word (c :: cs) }
  | .text us =>
    if c = '"' then some ⟨.between, textToken us :: s.tokens⟩
    else if c = '\\' then some { s with mode := .escape us }
    else if c.toNat < 0x20 then none
    else some { s with mode := .text (.char c :: us) }
  | .escape us =>
    if c = 'u' then some { s with mode := .code us 0 0 }
    else (escaped? c).map fun d => { s with mode := .text (.char d :: us) }
  | .code us digits value =>
    (hexValue? c).map fun d =>
      if digits = 3 then { s with mode := .text (.code (16 * value + d) :: us) }
      else { s with mode := .code us (digits + 1) (16 * value + d) }

def Scanner.finish? (s : Scanner) : Option (List Token) :=
  match s.mode with
  | .between => some s.tokens.reverse
  | .word cs => some (.word cs.reverse :: s.tokens).reverse
  | _ => none

def tokens? (cs : List Char) : Option (List Token) :=
  (cs.foldlM scan {}).bind Scanner.finish?

end BasRelief.Document.Json
