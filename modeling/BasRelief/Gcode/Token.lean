import BasRelief.Machine.Words
import BasRelief.Text.Blank
import BasRelief.Text.Digit

/-!
# Program lines

What a program line says: its first G word and the values of its axis words. A comment starts at
the first semicolon or parenthesis and takes the rest of the line. A value that is no number is
passed over with a warning.
-/

namespace BasRelief.Gcode

/-! ### Comments -/

def startsComment (c : Char) : Bool := c = ';' || c = '('

/-- The line without its comment; a comment ends before a line feed (`strip_comments`). -/
def stripComment (cs : List Char) : List Char :=
  cs.takeWhile (fun c => !startsComment c) ++
    (cs.dropWhile (fun c => !startsComment c)).dropWhile (· != '\n')

/-! ### The G word -/

def gDigits? : List Char → Option (List Char)
  | [] => none
  | c :: cs =>
    let ds := cs.takeWhile Text.isScriptDigit
    if c.toUpper = 'G' ∧ ds ≠ [] then some ds else gDigits? cs

/-- The number of a run of digits, if it is plain and fits in 32 bits. -/
def gNumber? (ds : List Char) : Option Nat :=
  if ds.all Decimal.isDigit ∧ Decimal.value ds < Nat.pow 2 32 then some (Decimal.value ds) else none

/-! ### Axis words -/

structure Occurrence where
  axis : Axis
  text : List Char
  deriving DecidableEq, Repr

def isValueChar (c : Char) : Bool := Text.isScriptDigit c || c = '.'

/-- The text of a value: an optional sign, then all the digits and points that follow. -/
def valueText? (cs : List Char) : Option (List Char) :=
  match cs with
  | [] => none
  | c :: rest =>
    let sign := if c = '+' ∨ c = '-' then [c] else []
    let body := if c = '+' ∨ c = '-' then rest else cs
    let run := body.takeWhile isValueChar
    if run = [] then none else some (sign ++ run)

/-- The axis words from left to right. A value holds no letter, so the search goes on right after
the letter. -/
def occurrences : List Char → List Occurrence
  | [] => []
  | c :: cs =>
    match Axis.ofLetter? c, valueText? cs with
    | some axis, some text => ⟨axis, text⟩ :: occurrences cs
    | _, _ => occurrences cs

/-- A word whose value cannot be read. -/
structure Warning where
  line : Nat
  letter : Char
  text : String
  deriving DecidableEq, Repr

namespace Warning

def message (w : Warning) : String :=
  "Line " ++ Decimal.natText w.line ++ ": ignored non-numeric value for " ++
    String.ofList [w.letter] ++ ": " ++ w.text

end Warning

namespace Occurrence
variable {α : Type} [Scalar α]

def value? (o : Occurrence) : Option α := (Numeral.read? o.text).map Scalar.ofNumeral

def assign (w : Words α) (o : Occurrence) : Words α :=
  match (o.value? : Option α) with
  | some v => w.set o.axis v
  | none => w

def warning? (line : Nat) (o : Occurrence) : Option Warning :=
  match Numeral.read? o.text with
  | some _ => none
  | none => some ⟨line, o.axis.letter, String.ofList o.text⟩

end Occurrence

/-! ### Tokens -/

/-- What a line says (`ProgramToken`). A G number that does not fit leaves a motion of another
kind. -/
structure Token (α : Type) where
  gNumber : Option Nat := none
  motion : Option MotionKind := none
  words : Words α := {}
  warnings : List Warning := []
  deriving DecidableEq, Repr

namespace Token
variable {α : Type} [Scalar α]

def motionOf (ds : List Char) : MotionKind :=
  match gNumber? ds with
  | some n => .ofNumber n
  | none => .other

def ofText (number : Nat) (cs : List Char) : Token α where
  gNumber := (gDigits? cs).bind gNumber?
  motion := (gDigits? cs).map motionOf
  words := (occurrences cs).foldl Occurrence.assign {}
  warnings := (occurrences cs).filterMap (Occurrence.warning? number)

/-- What a line says, if it says anything (`ProgramTokenizer::tokenize`). -/
def read? (number : Nat) (line : List Char) : Option (Token α) :=
  let cs := Text.trim (stripComment line)
  if cs = [] then none else some (ofText number cs)

end Token

/-! ### Laws -/

theorem stripComment_nil : stripComment [] = [] := rfl

theorem stripComment_cons_of_clean {c : Char} (h : startsComment c = false) (cs : List Char) :
    stripComment (c :: cs) = c :: stripComment cs := by
  simp [stripComment, h]

theorem stripComment_of_clean {cs : List Char} (h : ∀ c ∈ cs, startsComment c = false) :
    stripComment cs = cs := by
  induction cs with
  | nil => rfl
  | cons c cs ih =>
    rw [stripComment_cons_of_clean (h c List.mem_cons_self),
      ih fun d hd => h d (List.mem_cons_of_mem _ hd)]

end BasRelief.Gcode
