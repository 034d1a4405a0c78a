import BasRelief.Number.Double

/-!
# Scalars

The numbers that coordinates, depths, feeds and times are made of. Everything that computes with
them is written once, over `Scalar`: on `Float` it is the program that runs, on `Rat` the same
formulas in exact arithmetic.
-/

namespace BasRelief

class Scalar (α : Type) extends Add α, Sub α, Mul α, Div α, Neg α where
  natural : Nat → α
  ofNumeral : Numeral → α
  /-- Strictly below; never holds of what is not a number. -/
  less : α → α → Bool
  /-- Below or equal; never holds of what is not a number. -/
  atMost : α → α → Bool
  isFinite : α → Bool
  isNumber : α → Bool
  /-- The nearest whole number; a half goes away from zero. -/
  round : α → α
  ceiling : α → α
  /-- The whole part as a natural number; what is below zero or no number gives zero. -/
  truncate : α → Nat
  root : α → α
  fixed : Nat → α → String

namespace Scalar
variable {α : Type} [Scalar α]

def zero : α := natural 0

def one : α := natural 1

/-- `coefficient · 10 ^ (-places)`, for the constants of a formula. -/
def decimal (coefficient places : Nat) : α := ofNumeral ⟨false, coefficient, -places⟩

/-- Equal as numbers: both zeros are equal, and what is not a number equals nothing. -/
def equal (a b : α) : Bool := atMost a b && atMost b a

def isPositive (a : α) : Bool := isFinite a && less zero a

/-- The greater of two; what is not a number gives way, and of equals the second is taken. -/
def maximum (a b : α) : α := if !isNumber b then a else if less b a then a else b

/-- The smaller of two; what is not a number gives way, and of equals the second is taken. -/
def minimum (a b : α) : α := if !isNumber b then a else if less a b then a else b

def clamp (low high a : α) : α := if less a low then low else if less high a then high else a

end Scalar

instance : Scalar Float where
  natural := Float.ofNat
  ofNumeral := Double.ofNumeral
  less a b := decide (a < b)
  atMost a b := decide (a ≤ b)
  isFinite := Float.isFinite
  isNumber a := !a.isNaN
  round := Double.round
  ceiling := Double.ceiling
  truncate a := a.toUInt64.toNat
  root := Float.sqrt
  fixed := Double.fixed

/-! ### Exact arithmetic -/

namespace Exact

def round (r : Rat) : Rat :=
  let n : Int := Decimal.nearestUp r.num.natAbs r.den
  if r < 0 then (-n : Int) else n

/-- A root of a fraction, rounded down to a multiple of one over its denominator. -/
def root (r : Rat) : Rat :=
  (Nat.sqrt (r.num.toNat * r.den) : Rat) / (r.den : Rat)

def fixed (places : Nat) (r : Rat) : String :=
  String.ofList (Decimal.fixed places (decide (r < 0)) r.num.natAbs r.den)

end Exact

instance : Scalar Rat where
  natural n := (n : Rat)
  ofNumeral := Numeral.toRat
  less a b := decide (a < b)
  atMost a b := decide (a ≤ b)
  isFinite _ := true
  isNumber _ := true
  round := Exact.round
  ceiling r := (r.ceil : Rat)
  truncate r := r.floor.toNat
  root := Exact.root
  fixed := Exact.fixed

end BasRelief
