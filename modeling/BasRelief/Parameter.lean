import BasRelief.Scalar

/-!
# Parameter errors

Why a number or a shape is refused, and the message that says so.
-/

namespace BasRelief

/-- An end of an admitted range: a number, or the greatest finite double on either side. -/
inductive Bound (α : Type) where
  | value (v : α)
  | least
  | greatest
  deriving DecidableEq, Repr

/-- Why a grid, a mask or an image has no usable shape. The cells of a rectangle are uncountable
where no word holds their number, or no list all of them. -/
inductive ShapeFault (α : Type) where
  | emptyGrid (rows cols : Nat)
  | uncountable (rows cols : Nat)
  | gridCount (count rows cols : Nat)
  | maskCount (count rows cols : Nat)
  | emptyImage (width height : Nat)
  | tooManyPoints (cols rows : α)
  | described (reason : String)
  deriving DecidableEq, Repr

/-- Why parameters are refused; the last case is a plan of more passes than can be listed. -/
inductive ParameterError (α : Type) where
  | outOfRange (name : String) (value : α) (low high : Bound α)
  | shape (fault : ShapeFault α)
  | unlistablePasses (count : Nat)
  deriving DecidableEq, Repr

def maxGridPoints : Nat := 20000

namespace Bound

def text : Bound Float → String
  | value v => Double.text v
  | least => Double.text (-Double.greatest)
  | greatest => Double.text Double.greatest

end Bound

def sidesText (a b : Nat) : String := Decimal.natText a ++ "x" ++ Decimal.natText b

namespace ShapeFault

def text : ShapeFault Float → String
  | emptyGrid rows cols => sidesText rows cols
  | uncountable rows cols => "too many cells: " ++ sidesText rows cols
  | gridCount count rows cols =>
    Decimal.natText count ++ " values for a " ++ sidesText rows cols ++ " grid"
  | maskCount count rows cols =>
    Decimal.natText count ++ " cells for a " ++ sidesText rows cols ++ " mask"
  | emptyImage width height => "image is " ++ sidesText width height ++ " pixels"
  | tooManyPoints cols rows =>
    Double.text cols ++ " x " ++ Double.text rows ++ " grid points exceeds " ++
      Decimal.natText maxGridPoints ++ " per side"
  | described reason => reason

end ShapeFault

namespace ParameterError

def message : ParameterError Float → String
  | outOfRange name value low high =>
    "Parameter '" ++ name ++ "' out of range: " ++ Double.text value ++ " (valid: " ++ low.text ++
      ".." ++ high.text ++ ")"
  | shape fault => "Invalid dimensions: " ++ fault.text
  | unlistablePasses count => "Too many passes: " ++ Decimal.natText count

def isFatal {α : Type} : ParameterError α → Bool
  | shape (.uncountable _ _) => true
  | unlistablePasses _ => true
  | _ => false

end ParameterError

def notPositive {α : Type} [Scalar α] (name : String) (value : α) : ParameterError α :=
  .outOfRange name value (.value Scalar.zero) .greatest

end BasRelief
