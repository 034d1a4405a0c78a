/-!
# Doubles seen exactly

A finite double is a sign, a natural mantissa and a power of two. Everything that needs the exact
value of a double (rounding to whole numbers, printing) goes through `Binary.ofFloat`.
-/

namespace BasRelief

/-- What a double is: not a number, an infinity, or `± mantissa · 2 ^ exponent`. -/
inductive Binary where
  | nan
  | infinite (negative : Bool)
  | finite (negative : Bool) (mantissa : Nat) (exponent : Int)
  deriving DecidableEq, Repr

namespace Binary

/-- Both zeros have mantissa zero; a normal double has a mantissa of 53 bits. -/
def ofFloat (x : Float) : Binary :=
  match x.toModel.unpack with
  | .notANumber => .nan
  | .infinity s => .infinite (s == .negative)
  | .zero s => .finite (s == .negative) 0 0
  | .finite s m e _ => .finite (s == .negative) m e

def quotient (mantissa : Nat) (exponent : Int) : Nat × Nat :=
  if 0 ≤ exponent then (mantissa * Nat.pow 2 exponent.toNat, 1)
  else (mantissa, Nat.pow 2 (-exponent).toNat)

def toRat? : Binary → Option Rat
  | .finite negative m e =>
    let (num, den) := quotient m e
    let size : Rat := (num : Rat) / (den : Rat)
    some (if negative then -size else size)
  | _ => none

theorem quotient_den_pos (m : Nat) (e : Int) : 0 < (quotient m e).2 := by
  unfold quotient
  split
  · exact Nat.one_pos
  · exact Nat.two_pow_pos _

end Binary
end BasRelief
