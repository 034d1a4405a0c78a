import BasRelief.Document.Value
import BasRelief.Number.Double
import BasRelief.Document.Json.Token

/-!
# TOML numbers, dates and truth values

A scalar without quotes is a run of letters, digits and signs. The whole run must be a truth value,
a date or a time, a double, or an integer of 64 bits.
-/

namespace BasRelief.Document.Toml

def isScalarChar (c : Char) : Bool :=
  c.isAlphanum || c = '+' || c = '-' || c = '_' || c = '.' || c = ':'

/-! ### Digits -/

/-- Digits without the underscores between them; an underscore needs a digit on both sides. -/
def digitGroups? (isDigit : Char → Bool) : List Char → Option (List Char)
  | [] => none
  | [c] => if isDigit c then some [c] else none
  | c :: '_' :: rest => if isDigit c then (digitGroups? isDigit rest).map (c :: ·) else none
  | c :: rest => if isDigit c then (digitGroups? isDigit rest).map (c :: ·) else none

def wholeDigits? (cs : List Char) : Option (List Char) :=
  match digitGroups? Decimal.isDigit cs with
  | some ('0' :: _ :: _) => none
  | ds => ds

def fixedDigits? (count : Nat) (cs : List Char) : Option (Nat × List Char) :=
  let ds := cs.take count
  if ds.length = count ∧ ds.all Decimal.isDigit then some (Decimal.value ds, cs.drop count)
  else none

/-! ### Dates and times -/

def isLeap (year : Nat) : Bool := year % 4 = 0 && (year % 100 ≠ 0 || year % 400 = 0)

def daysIn (year month : Nat) : Nat :=
  if month = 2 then (if isLeap year then 29 else 28)
  else if month = 4 ∨ month = 6 ∨ month = 9 ∨ month = 11 then 30
  else 31

def date? (cs : List Char) : Option (List Char) := do
  let (year, cs) ← fixedDigits? 4 cs
  guard (cs.head? = some '-')
  let (month, cs) ← fixedDigits? 2 (cs.drop 1)
  guard (cs.head? = some '-' ∧ 1 ≤ month ∧ month ≤ 12)
  let (day, cs) ← fixedDigits? 2 (cs.drop 1)
  guard (1 ≤ day ∧ day ≤ daysIn year month)
  return cs

def afterFraction? : List Char → Option (List Char)
  | '.' :: cs =>
    if (cs.takeWhile Decimal.isDigit).isEmpty then none else some (cs.dropWhile Decimal.isDigit)
  | cs => some cs

def time? (cs : List Char) : Option (List Char) := do
  let (hour, cs) ← fixedDigits? 2 cs
  guard (cs.head? = some ':' ∧ hour ≤ 23)
  let (minute, cs) ← fixedDigits? 2 (cs.drop 1)
  guard (cs.head? = some ':' ∧ minute ≤ 59)
  let (second, cs) ← fixedDigits? 2 (cs.drop 1)
  guard (second ≤ 60)
  afterFraction? cs

def isZone : List Char → Bool
  | [] => true
  | [c] => c = 'Z' || c = 'z'
  | c :: cs =>
    (c = '+' || c = '-') &&
      match fixedDigits? 2 cs with
      | some (hour, ':' :: cs) =>
        match fixedDigits? 2 cs with
        | some (minute, []) => hour ≤ 23 && minute ≤ 59
        | _ => false
      | _ => false

def isZonedTime (cs : List Char) : Bool := ((time? cs).map isZone).getD false

def isMoment (cs : List Char) : Bool :=
  match date? cs with
  | some [] => true
  | some (c :: rest) => (c = 'T' || c = 't') && isZonedTime rest
  | none => time? cs = some []

def isDate (cs : List Char) : Bool := date? cs = some []

/-! ### Numbers -/

def fractionPart? : List Char → Option (List Char × List Char)
  | '.' :: cs =>
    let run := cs.takeWhile fun c => Decimal.isDigit c || c = '_'
    (digitGroups? Decimal.isDigit run).map fun ds => ('.' :: ds, cs.drop run.length)
  | cs => some ([], cs)

def exponentPart? : List Char → Option (List Char)
  | [] => some []
  | c :: cs =>
    if c = 'e' ∨ c = 'E' then
      let signed := cs.head? == some '+' || cs.head? == some '-'
      let ds := if signed then cs.drop 1 else cs
      (digitGroups? Decimal.isDigit ds).map fun ds =>
        c :: ((if signed then cs.take 1 else []) ++ ds)
    else none

/-- A number with a point or a power of ten; one above the greatest double is refused. -/
def decimalFloat? (cs : List Char) : Option Float := do
  let signed := cs.head? == some '+' || cs.head? == some '-'
  let body := if signed then cs.drop 1 else cs
  let run := body.takeWhile fun c => Decimal.isDigit c || c = '_'
  let whole ← wholeDigits? run
  let rest := body.drop run.length
  guard (!rest.isEmpty)
  let (fraction, rest) ← fractionPart? rest
  let exponent ← exponentPart? rest
  let n ← Numeral.read? ((if signed then cs.take 1 else []) ++ whole ++ fraction ++ exponent)
  let x := Double.ofNumeral n
  guard (x != Double.infinity)
  return x

def specialFloat? (cs : List Char) : Option Float :=
  match String.ofList cs with
  | "inf" => some Double.infinity
  | "+inf" => some Double.infinity
  | "-inf" => some (-Double.infinity)
  | "nan" => some Double.notANumber
  | "+nan" => some Double.notANumber
  | "-nan" => some (-Double.notANumber)
  | _ => none

def baseValue (base : Nat) (ds : List Char) : Nat :=
  ds.foldl (fun n c => base * n + (Json.hexValue? c).getD 0) 0

def basedInteger? (base : Nat) (isDigit : Char → Bool) (cs : List Char) : Option Nat :=
  (digitGroups? isDigit cs).map (baseValue base)

def integer? (cs : List Char) : Option Int := do
  let n : Int ← match cs with
    | '0' :: 'x' :: ds => (basedInteger? 16 (fun c => (Json.hexValue? c).isSome) ds).map Int.ofNat
    | '0' :: 'o' :: ds => (basedInteger? 8 (fun c => '0' ≤ c && c ≤ '7') ds).map Int.ofNat
    | '0' :: 'b' :: ds => (basedInteger? 2 (fun c => c = '0' || c = '1') ds).map Int.ofNat
    | '-' :: ds => (wholeDigits? ds).map fun ds => -(Decimal.value ds : Int)
    | '+' :: ds => (wholeDigits? ds).map fun ds => (Decimal.value ds : Int)
    | ds => (wholeDigits? ds).map fun ds => (Decimal.value ds : Int)
  guard (-Int.pow 2 63 ≤ n ∧ n < Int.pow 2 63)
  return n

def scalar? (cs : List Char) : Option Value :=
  match String.ofList cs with
  | "true" => some (.bool true)
  | "false" => some (.bool false)
  | _ =>
    if isMoment cs then some .moment
    else match (decimalFloat? cs <|> specialFloat? cs), integer? cs with
      | some x, _ => some (.float x)
      | none, some n => some (.integer n)
      | none, none => none

end BasRelief.Document.Toml
