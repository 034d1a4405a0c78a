import BasRelief.Number.Word
import BasRelief.Parameter

/-!
# Toolpath parameters

The numbers a toolpath is made with, and the depths of its passes.
-/

namespace BasRelief

/-- Lengths in millimetres and feeds in millimetres per minute (`ToolpathParameters`). -/
structure ToolpathParameters (α : Type) where
  step : α
  safeZ : α
  rapidFeed : α
  cutFeed : α
  maxDepthPerPass : α
  toolDiameter : α
  deriving DecidableEq, Repr

namespace ToolpathParameters
variable {α : Type} [Scalar α]

/-- The first parameter that is out of its range (`ToolpathParameters::validate`). -/
def fault? (p : ToolpathParameters α) : Option (ParameterError α) :=
  if !Scalar.isPositive p.step then some (notPositive "step_mm" p.step)
  else if !Scalar.isPositive p.cutFeed then some (notPositive "cut_feed" p.cutFeed)
  else if !Scalar.isPositive p.maxDepthPerPass then
    some (notPositive "max_depth_per_pass" p.maxDepthPerPass)
  else none

end ToolpathParameters

/-! ### Depths of the passes -/

section
variable {α : Type} [Scalar α]

/-- How many passes reach a depth below the surface; the slack keeps an exact multiple of the limit
from gaining a pass. -/
def passCount (depth limit : α) : Nat :=
  Scalar.truncate (Scalar.maximum (Scalar.ceiling (depth / limit - Scalar.decimal 1 9)) Scalar.one)

/-- The depth of the pass with the given number, counted from one; the last one is the total. -/
def passDepth (total limit : α) (passes number : Nat) : α :=
  if number = passes then total
  else Scalar.maximum total (-limit * Scalar.natural number)

/-- The depths from the first to the total, however many they are; a total that is not below the
surface is one slice. -/
def slices (total limit : α) : List α :=
  if Scalar.atMost Scalar.zero total then [total]
  else
    let passes := passCount (-total) limit
    (List.range passes).map fun i => passDepth total limit passes (i + 1)

def sliceCount (total limit : α) : Nat :=
  if Scalar.atMost Scalar.zero total then 1 else passCount (-total) limit

def depthFault? (total limit : α) : Option (ParameterError α) :=
  if !Scalar.isPositive limit then some (notPositive "max_depth_per_pass" limit)
  else if !Scalar.isFinite total then some (.outOfRange "total_depth" total .least .greatest)
  else none

/-- `pass_depths`: the slices as a list, which ends the work where it would be too long. -/
def passDepths (total limit : α) : Except (ParameterError α) (List α) :=
  match depthFault? total limit with
  | some e => .error e
  | none =>
    if longestList < sliceCount total limit then .error (.unlistablePasses (sliceCount total limit))
    else .ok (slices total limit)

/-! ### Laws -/

theorem length_slices (total limit : α) : (slices total limit).length = sliceCount total limit := by
  unfold slices sliceCount
  split
  · rfl
  · exact (List.length_map _).trans List.length_range

theorem passDepths_of_fit {total limit : α} (hlimit : Scalar.isPositive limit = true)
    (htotal : Scalar.isFinite total = true) :
    passDepths total limit =
      if longestList < (slices total limit).length then
        .error (.unlistablePasses (slices total limit).length)
      else .ok (slices total limit) := by
  have hfault : depthFault? total limit = none := by
    rw [depthFault?, hlimit, htotal]
    rfl
  rw [passDepths, hfault, length_slices]

end

end BasRelief
