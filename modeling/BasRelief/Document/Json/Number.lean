import BasRelief.Decimal.Digits
import BasRelief.Document.Value

/-!
# JSON numbers

A word that is a number becomes an integer, if it is written as one and fits in 64 bits, or a
double. Of the digits, as many as fit in 64 bits count; the power of ten is applied to them in one
step, so the double is near the number but not always nearest.
-/

namespace BasRelief.Document.Json

/-! ### Grammar -/

structure Lexeme where
  negative : Bool
  whole : List Char
  /-- The digits after a point; with a point there is at least one. -/
  fraction : Option (List Char)
  /-- Sign and digits of the power of ten; there is at least one digit. -/
  exponent : Option (Bool × List Char)
  deriving DecidableEq, Repr

def isWhole : List Char → Bool
  | [] => false
  | ['0'] => true
  | c :: cs => c != '0' && (c :: cs).all Decimal.isDigit

def exponentSign : List Char → Bool × List Char
  | '-' :: cs => (true, cs)
  | '+' :: cs => (false, cs)
  | cs => (false, cs)

def readExponent? : List Char → Option (Option (Bool × List Char))
  | [] => some none
  | c :: cs =>
    let (negative, ds) := exponentSign cs
    if (c = 'e' ∨ c = 'E') ∧ ds ≠ [] ∧ ds.all Decimal.isDigit then some (some (negative, ds))
    else none

def readFraction? : List Char → Option (Option (List Char) × Option (Bool × List Char))
  | '.' :: cs =>
    let ds := cs.takeWhile Decimal.isDigit
    if ds = [] then none
    else (readExponent? (cs.dropWhile Decimal.isDigit)).map fun e => (some ds, e)
  | cs => (readExponent? cs).map fun e => (none, e)

def lexeme? (cs : List Char) : Option Lexeme :=
  let negative := cs.head? == some '-'
  let body := if negative then cs.drop 1 else cs
  let whole := body.takeWhile Decimal.isDigit
  if isWhole whole then
    (readFraction? (body.dropWhile Decimal.isDigit)).map fun (fraction, exponent) =>
      ⟨negative, whole, fraction, exponent⟩
  else none

/-! ### Value -/

/-- The number of digits from the front that fit in 64 bits after `n`, and what they make of it. -/
def gather (n : Nat) : List Char → Nat × Nat
  | [] => (n, 0)
  | c :: cs =>
    let m := 10 * n + Decimal.digitValue c
    if m < Nat.pow 2 64 then
      let (result, taken) := gather m cs
      (result, taken + 1)
    else (n, 0)

def powerOfTen (n : Nat) : Float := Float.ofScientific 1 false n

/-- `x / 10 ^ n`. Powers above 308 are divided out in chunks; three chunks leave nothing. -/
def divideByPower (x : Float) (n : Nat) : Float :=
  let chunks := (n - 1) / 308
  (min chunks 3).repeat (· / powerOfTen 308) x / powerOfTen (n - 308 * chunks)

/-- `significand · 10 ^ exponent`; a result that is too great has no value. -/
def scale? (significand : Nat) (exponent : Int) : Option Float :=
  let x := Float.ofNat significand
  if 0 ≤ exponent then
    if exponent ≤ 308 then
      let y := x * powerOfTen exponent.toNat
      if y.isFinite then some y else none
    else if significand = 0 then some x else none
  else some (divideByPower x exponent.natAbs)

/-- The power of ten as written; one that does not fit in 32 bits has no value. -/
def exponentValue? (negative : Bool) (ds : List Char) : Option Int :=
  let n := Decimal.value ds
  if n < Nat.pow 2 31 then some (if negative then -(n : Int) else n) else none

def negate (negative : Bool) (x : Float) : Float := if negative then -x else x

namespace Lexeme

def float? (l : Lexeme) : Option Float :=
  let (n, taken) := gather 0 l.whole
  let dropped := l.whole.length - taken
  let (m, used) := gather n (l.fraction.getD [])
  let shift : Int := (dropped : Int) - used
  match l.exponent with
  | none => (scale? m shift).map (negate l.negative)
  | some (down, ds) =>
    match exponentValue? down ds with
    | some e => (scale? m (shift + e)).map (negate l.negative)
    | none => if m = 0 || down then some (negate l.negative 0) else none

/-- The number: an integer if it is written as one and fits, a double otherwise. -/
def value (l : Lexeme) : Value :=
  let n := Decimal.value l.whole
  let whole := l.fraction.isNone && l.exponent.isNone
  if whole && !l.negative && n < Nat.pow 2 64 then .integer n
  else if whole && l.negative && 0 < n && n ≤ Nat.pow 2 63 then .integer (-(n : Int))
  else match l.float? with
    | some x => .float x
    | none => .unreadable

end Lexeme
end BasRelief.Document.Json
