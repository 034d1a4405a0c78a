import BasRelief.Decimal.Digits

/-!
# Shortest decimals

The decimal with the fewest digits inside an interval around a positive quotient, and of those the
nearest to it. The interval of a double holds exactly the numbers that are nearest to that double,
so its shortest decimal reads back as the double.
-/

namespace BasRelief.Decimal

inductive Tie where
  | up
  | even
  deriving DecidableEq, Repr

/-- A positive value with the bounds of its interval, all three in units of `1 / den`; the bounds
themselves belong to the interval when `closed` holds. -/
structure Interval where
  low : Nat
  value : Nat
  high : Nat
  den : Nat
  closed : Bool

namespace Interval

/-- The numbers nearest to `mantissa · 2 ^ exponent`: half a step on each side, and half of that
below a power of two that starts a new step size. An even mantissa wins its ties. -/
def ofBinary (mantissa : Nat) (exponent : Int) (stepChanges : Bool) : Interval :=
  let below := if stepChanges then 1 else 2
  let scale := if 0 ≤ exponent then Nat.pow 2 exponent.toNat else 1
  { low := (4 * mantissa - below) * scale
    value := 4 * mantissa * scale
    high := (4 * mantissa + 2) * scale
    den := if 0 ≤ exponent then 4 else 4 * Nat.pow 2 (-exponent).toNat
    closed := mantissa % 2 = 0 }

def holds (i : Interval) (num : Nat) : Bool :=
  if i.closed then i.low ≤ num && num ≤ i.high else i.low < num && num < i.high

def scaled (i : Interval) (power : Int) : Interval :=
  if 0 ≤ power then
    let k := Nat.pow 10 power.toNat
    { i with low := i.low * k, value := i.value * k, high := i.high * k }
  else { i with den := i.den * Nat.pow 10 (-power).toNat }

def whole? (tie : Tie) (i : Interval) : Option Nat :=
  let lower := i.value / i.den
  let lowerIn := i.holds (lower * i.den)
  let upperIn := i.holds ((lower + 1) * i.den)
  let gapBelow := i.value - lower * i.den
  let gapAbove := (lower + 1) * i.den - i.value
  match lowerIn, upperIn with
  | true, true =>
    if gapBelow < gapAbove then some lower
    else if gapAbove < gapBelow then some (lower + 1)
    else match tie with
      | .up => some (lower + 1)
      | .even => some (lower + lower % 2)
  | true, false => some lower
  | false, true => some (lower + 1)
  | false, false => none

/-- Tries the grids `10 ^ top`, `10 ^ (top - 1)`, … and stops at the first that meets the interval. -/
def search (tie : Tie) (i : Interval) (top : Int) : Nat → Nat × Int
  | 0 => (((i.scaled (-top)).whole? tie).getD 0, top)
  | steps + 1 =>
    match (i.scaled (-top)).whole? tie with
    | some n => (n, top)
    | none => search tie i (top - 1) steps

/-- A power of ten that is not above the value, at most one digit too small. -/
def topPlace (i : Interval) : Int :=
  if i.den ≤ i.value then length (i.value / i.den) - 1
  else -(length (i.den / i.value) : Int)

end Interval

def trimZeros (n : Nat) (e : Int) : Nat × Int :=
  if h : n ≠ 0 ∧ n % 10 = 0 then trimZeros (n / 10) (e + 1) else (n, e)
termination_by n
decreasing_by omega

/-- Coefficient and power of ten of the shortest decimal in the interval. Seventeen digits always
suffice for a double, and `topPlace` costs at most one more. -/
def shortest (tie : Tie) (i : Interval) : Nat × Int :=
  let (n, e) := i.search tie i.topPlace 18
  trimZeros n e

/-! ### Layout -/

def positional (n : Nat) (e : Int) : List Char :=
  let ds := digits n
  if 0 ≤ e then ds ++ List.replicate e.toNat '0'
  else
    let places := (-e).toNat
    if places < ds.length then
      ds.take (ds.length - places) ++ '.' :: ds.drop (ds.length - places)
    else '0' :: '.' :: (List.replicate (places - ds.length) '0' ++ ds)

def pointed (n : Nat) (e : Int) : List Char :=
  if 0 ≤ e then positional n e ++ ['.', '0'] else positional n e

def scientific (n : Nat) (e : Int) : List Char :=
  let ds := digits n
  let power : Int := e + (ds.length - 1 : Nat)
  let mantissa := match ds with
    | [] => []
    | [d] => [d]
    | d :: rest => d :: '.' :: rest
  let sign := if power < 0 then '-' else '+'
  mantissa ++ 'e' :: sign :: digits power.natAbs

end BasRelief.Decimal
