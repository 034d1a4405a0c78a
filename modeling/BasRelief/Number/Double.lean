import BasRelief.Number.Binary
import BasRelief.Decimal.Numeral
import BasRelief.Decimal.Fixed
import BasRelief.Decimal.Shortest

/-!
# Doubles

Reading, printing and rounding of doubles by their exact value.
-/

namespace BasRelief.Double

/-! ### Reading -/

/-- The double nearest to a numeral; a negative zero keeps its sign. -/
def ofNumeral (n : Numeral) : Float :=
  let size := Float.ofScientific n.coefficient (n.exponent < 0) n.exponent.natAbs
  if n.negative then -size else size

def infinity : Float := 1.0 / 0.0

def notANumber : Float := 0.0 / 0.0

def named? (cs : List Char) : Option Float :=
  let (negative, body) := Numeral.readSign cs
  let word := String.ofList (body.map Char.toLower)
  if word = "inf" ∨ word = "infinity" then some (if negative then -infinity else infinity)
  else if word = "nan" then some notANumber
  else none

def read? (cs : List Char) : Option Float :=
  match Numeral.read? cs with
  | some n => some (ofNumeral n)
  | none => named? cs

/-! ### Rounding to whole numbers -/

def ofWhole (negative : Bool) (n : Nat) : Float :=
  if negative then -(Float.ofNat n) else Float.ofNat n

/-- The nearest whole number; a half goes away from zero. -/
def round (x : Float) : Float :=
  match Binary.ofFloat x with
  | .finite negative m e =>
    if 0 ≤ e then x
    else
      let (num, den) := Binary.quotient m e
      ofWhole negative (Decimal.nearestUp num den)
  | _ => x

def ceiling (x : Float) : Float :=
  match Binary.ofFloat x with
  | .finite negative m e =>
    if 0 ≤ e then x
    else
      let (num, den) := Binary.quotient m e
      ofWhole negative (if negative then num / den else Decimal.above num den)
  | _ => x

/-! ### Printing -/

def fixed (places : Nat) (x : Float) : String :=
  match Binary.ofFloat x with
  | .nan => "NaN"
  | .infinite negative => if negative then "-inf" else "inf"
  | .finite negative m e =>
    let (num, den) := Binary.quotient m e
    String.ofList (Decimal.fixed places negative num den)

/-- The mantissa at which doubles start to be twice as far apart, except at the least exponent. -/
def stepChanges (m : Nat) (e : Int) : Bool := m = Nat.pow 2 52 && -1074 < e

def shortest (tie : Decimal.Tie) (m : Nat) (e : Int) : Nat × Int :=
  if m = 0 then (0, 0)
  else Decimal.shortest tie (Decimal.Interval.ofBinary m e (stepChanges m e))

/-- Plain notation with the fewest digits that read back: `1`, `-0`, `0.001`, `inf`, `NaN`. -/
def text (x : Float) : String :=
  match Binary.ofFloat x with
  | .nan => "NaN"
  | .infinite negative => if negative then "-inf" else "inf"
  | .finite negative m e =>
    let (n, power) := shortest .up m e
    String.ofList (Decimal.signed negative (Decimal.positional n power))

def greatest : Float := Float.ofScientific 17976931348623157 false 292

end BasRelief.Double
