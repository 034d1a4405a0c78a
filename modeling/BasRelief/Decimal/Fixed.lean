import BasRelief.Decimal.Digits
import BasRelief.Decimal.Rounding

/-!
# Fixed-point text

A quotient written with a given number of decimal places. The exact value is rounded once, to the
nearest multiple of the last place, and a tie goes to the even digit.
-/

namespace BasRelief.Decimal

def padLeft (width : Nat) (cs : List Char) : List Char :=
  List.replicate (width - cs.length) '0' ++ cs

def placed (places units : Nat) : List Char :=
  if places = 0 then digits units
  else
    let ds := padLeft (places + 1) (digits units)
    ds.take (ds.length - places) ++ '.' :: ds.drop (ds.length - places)

/-- A sign is kept even where the digits are all zero. -/
def signed (negative : Bool) (cs : List Char) : List Char :=
  if negative then '-' :: cs else cs

def fixed (places : Nat) (negative : Bool) (num den : Nat) : List Char :=
  signed negative (placed places (nearestEven (num * Nat.pow 10 places) den))

end BasRelief.Decimal
