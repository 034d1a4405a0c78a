import BasRelief.Document.Json.Writer
import BasRelief.Document.Toml.Text

/-!
# Writing TOML

Sections of keys with numbers and texts. A text is written in the plainest form that shows it as it
is, and with escapes only where no form does.
-/

namespace BasRelief.Document.Toml

/-! ### The form of a text -/

inductive TextForm where
  | basic
  | literal
  | multiBasic
  | multiLiteral
  deriving DecidableEq, Repr

def isHidden (c : Char) : Bool := !isPlain c && c ≠ '\n'

def hasRun (quote : Char) (n : Nat) : List Char → Bool
  | [] => n = 0
  | c :: cs => (c :: cs).take n = List.replicate n quote || hasRun quote n cs

/-- The first form that needs no escape, one line before several and escaping quotes before the
others. Where every form needs one, a text of several lines stays on several lines. -/
def formOf (cs : List Char) : TextForm :=
  let hidden := cs.any isHidden
  let escaping := hidden || cs.contains '\\'
  let broken := cs.contains '\n'
  if !escaping && !broken && !cs.contains '"' then .basic
  else if !hidden && !broken && !cs.contains '\'' then .literal
  else if !escaping && !hasRun '"' 3 cs then .multiBasic
  else if !hidden && !hasRun '\'' 3 cs then .multiLiteral
  else if broken then .multiBasic
  else .basic

/-! ### Escapes -/

def capitalHexDigit (d : Nat) : Char := if d < 10 then Char.ofNat (48 + d) else Char.ofNat (55 + d)

def controlEscape (n : Nat) : List Char :=
  ['\\', 'u', '0', '0', capitalHexDigit (n / 16), capitalHexDigit (n % 16)]

def textChar (c : Char) : List Char :=
  match c with
  | '\\' => ['\\', '\\']
  | '\x08' => ['\\', 'b']
  | '\t' => ['\\', 't']
  | '\n' => ['\\', 'n']
  | '\x0c' => ['\\', 'f']
  | '\r' => ['\\', 'r']
  | c => if isPlain c then [c] else controlEscape c.toNat

def basicBody : List Char → List Char
  | [] => []
  | c :: cs => (if c = '"' then ['\\', '"'] else textChar c) ++ basicBody cs

/-- A text over several lines: of three quotes side by side the last one is escaped. The first
argument counts the bare quotes right before. -/
def multiBody : Nat → List Char → List Char
  | _, [] => []
  | quotes, c :: cs =>
    if c = '"' then
      if quotes < 2 then '"' :: multiBody (quotes + 1) cs else '\\' :: '"' :: multiBody 0 cs
    else if c = '\n' then '\n' :: multiBody 0 cs
    else textChar c ++ multiBody 0 cs

/-! ### Scalars -/

inductive WriteError where
  /-- An integer needs more than 64 bits with a sign. -/
  | integerRange
  /-- More quotes stand side by side than can be counted. -/
  | quoteRun
  /-- A value has no place in a section. -/
  | misplaced
  deriving DecidableEq, Repr

/-- The length of a run of quotes that can no longer be counted: runs are counted in an octet. -/
def longRun : Nat := 256

/-- A line end after the opening quotes, which readers pass over, if the text has one too. -/
def openingLineEnd (cs : List Char) : List Char := if cs.contains '\n' then ['\n'] else []

def textLiteral (cs : List Char) : List Char :=
  match formOf cs with
  | .basic => '"' :: basicBody cs ++ ['"']
  | .literal => '\'' :: cs ++ ['\'']
  | .multiBasic => ['"', '"', '"'] ++ openingLineEnd cs ++ multiBody 0 cs ++ ['"', '"', '"']
  | .multiLiteral => ['\'', '\'', '\''] ++ openingLineEnd cs ++ cs ++ ['\'', '\'', '\'']

def floatText (x : Float) : List Char :=
  match Binary.ofFloat x with
  | .nan => ['n', 'a', 'n']
  | .infinite negative => Decimal.signed negative ['i', 'n', 'f']
  | .finite negative m e =>
    let (n, power) := Double.shortest .up m e
    Decimal.signed negative (Decimal.pointed n power)

def scalarText : Value → Except WriteError (List Char)
  | .integer n =>
    if -Int.pow 2 63 ≤ n ∧ n < Int.pow 2 63 then .ok (Json.integerText n)
    else .error .integerRange
  | .float x => .ok (floatText x)
  | .text s =>
    if hasRun '"' longRun s.toList || hasRun '\'' longRun s.toList then .error .quoteRun
    else .ok (textLiteral s.toList)
  | _ => .error .misplaced

/-! ### Sections -/

def entryLine : String × Value → Except WriteError (List Char)
  | (key, v) => (scalarText v).map fun cs => key.toList ++ [' ', '=', ' '] ++ cs ++ ['\n']

def sectionText : String × List (String × Value) → Except WriteError (List Char)
  | (name, entries) => (entries.mapM entryLine).map fun lines =>
    '[' :: name.toList ++ [']', '\n'] ++ lines.flatten

/-- Sections with an empty line between them, or why the first of the values that cannot be written
cannot be. -/
def write (sections : List (String × List (String × Value))) : Except WriteError (List Char) :=
  (sections.mapM sectionText).map fun parts => List.flatten (parts.intersperse ['\n'])

end BasRelief.Document.Toml
