import BasRelief.Decimal.Digits

/-!
# The colour palette

A pixel takes the height of the palette colour that is nearest to it.
-/

namespace BasRelief

structure Rgb where
  red : UInt8
  green : UInt8
  blue : UInt8
  deriving DecidableEq, Repr

/-- A palette colour with its name and the height it stands for, in millimetres. -/
structure PaletteEntry where
  name : String
  color : Rgb
  height : Nat
  deriving DecidableEq, Repr

namespace Palette

def white : PaletteEntry := ⟨"white", ⟨255, 255, 255⟩, 0⟩

/-- The entries after the first, in order; of equally near entries the earlier wins. -/
def others : List PaletteEntry :=
  [⟨"yellow", ⟨255, 255, 0⟩, 1⟩,
   ⟨"green", ⟨0, 255, 0⟩, 2⟩,
   ⟨"blue", ⟨0, 0, 255⟩, 3⟩,
   ⟨"purple", ⟨128, 0, 128⟩, 4⟩,
   ⟨"red", ⟨255, 0, 0⟩, 5⟩,
   ⟨"black", ⟨0, 0, 0⟩, 6⟩]

def entries : List PaletteEntry := white :: others

def maxHeight : Nat := 6

def squaredGap (a b : UInt8) : Nat :=
  let gap := (a.toNat : Int) - b.toNat
  (gap * gap).toNat

/-- How far two colours are apart (`squared_distance`). -/
def squaredDistance (a b : Rgb) : Nat :=
  squaredGap a.red b.red + squaredGap a.green b.green + squaredGap a.blue b.blue

def closer (color : Rgb) (best entry : PaletteEntry) : PaletteEntry :=
  if squaredDistance color entry.color < squaredDistance color best.color then entry else best

def nearestOf (color : Rgb) (first : PaletteEntry) (rest : List PaletteEntry) : PaletteEntry :=
  rest.foldl (closer color) first

/-- The palette entry nearest to a colour (`ColorHeightMapper::nearest`). -/
def nearest (color : Rgb) : PaletteEntry := nearestOf color white others

/-- The height of the nearest entry (`height_for`). -/
def heightOf (color : Rgb) : Nat := (nearest color).height

end Palette

def isActive (intensity threshold : UInt8) : Bool := intensity < threshold

end BasRelief
