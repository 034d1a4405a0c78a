import BasRelief.Decimal.Digits

/-!
# Decimal numerals

A numeral is a sign, a whole coefficient and a power of ten. `Numeral.read?` accepts an optional
sign, digits with at most one point and at least one digit, and an optional power of ten.
-/

namespace BasRelief

/-- The number `± coefficient · 10 ^ exponent`, exactly as written. -/
structure Numeral where
  negative : Bool
  coefficient : Nat
  exponent : Int
  deriving DecidableEq, Repr

namespace Numeral

def readSign : List Char → Bool × List Char
  | '+' :: cs => (false, cs)
  | '-' :: cs => (true, cs)
  | cs => (false, cs)

/-- The power of ten after an `e`; no text at all is the power zero. -/
def readExponent? : List Char → Option Int
  | [] => some 0
  | c :: cs =>
    if c = 'e' ∨ c = 'E' then
      let (negative, ds) := readSign cs
      if ds ≠ [] ∧ ds.all Decimal.isDigit then
        let n : Int := Decimal.value ds
        some (if negative then -n else n)
      else none
    else none

def splitDigits (cs : List Char) : List Char × List Char × List Char :=
  let whole := cs.takeWhile Decimal.isDigit
  match cs.dropWhile Decimal.isDigit with
  | '.' :: rest => (whole, rest.takeWhile Decimal.isDigit, rest.dropWhile Decimal.isDigit)
  | rest => (whole, [], rest)

def read? (cs : List Char) : Option Numeral :=
  let (negative, body) := readSign cs
  let (whole, fraction, rest) := splitDigits body
  if whole ++ fraction = [] then none
  else (readExponent? rest).map fun e =>
    ⟨negative, Decimal.value (whole ++ fraction), e - fraction.length⟩

def toRat (n : Numeral) : Rat :=
  let size : Rat := (n.coefficient : Rat) * (10 : Rat) ^ n.exponent
  if n.negative then -size else size

end Numeral
end BasRelief
