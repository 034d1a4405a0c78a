import BasRelief.Document.Record
import BasRelief.Toolpath.Plan

/-!
# Plans as document values
-/

namespace BasRelief
open Document

namespace Target

def toValue (t : Target Float) : Value :=
  .record [("x", .ofOption .float t.x), ("y", .ofOption .float t.y), ("z", .ofOption .float t.z)]

def ofValue : Decoder (Target Float) := fun d v => do
  let r ← Record.of [⟨"x", none⟩, ⟨"y", none⟩, ⟨"z", none⟩] d v
  return ⟨← r.optional d "x" .float, ← r.optional d "y" .float, ← r.optional d "z" .float⟩

end Target

namespace Motion

def toValue (m : Motion Float) : Value :=
  let body := .record [("target", m.target.toValue), ("feed", .ofOption .float m.feed)]
  match m with
  | rapid .. => .record [("Rapid", body)]
  | cut .. => .record [("Cut", body)]

def bodyOfValue : Decoder (Target Float × Option Float) := fun d v => do
  let r ← Record.of [⟨"target", none⟩, ⟨"feed", none⟩] d v
  return (← r.required d "target" Target.ofValue, ← r.optional d "feed" .float)

def ofValue : Decoder (Motion Float) := fun d v => do
  match ← Decoder.variant v with
  | ("Rapid", some body) => return rapid (← bodyOfValue d body).1 (← bodyOfValue d body).2
  | ("Cut", some body) => return cut (← bodyOfValue d body).1 (← bodyOfValue d body).2
  | (name, _) => .error (.unknownVariant name)

end Motion

namespace MachineCode

def all : List MachineCode :=
  [unitsMillimeters, absolutePositioning, planeXY, spindleOn, spindleOff, programEnd]

def name : MachineCode → String
  | unitsMillimeters => "UnitsMillimeters"
  | absolutePositioning => "AbsolutePositioning"
  | planeXY => "PlaneXY"
  | spindleOn => "SpindleOn"
  | spindleOff => "SpindleOff"
  | programEnd => "ProgramEnd"

def toValue (c : MachineCode) : Value := .text c.name

def ofValue : Decoder MachineCode := Decoder.choice (all.map fun c => (c.name, c))

end MachineCode

namespace PlanStep

def toValue : PlanStep Float → Value
  | comment s => .record [("Comment", .text s)]
  | code c => .record [("Code", c.toValue)]
  | motion m => .record [("Motion", m.toValue)]

def ofValue : Decoder (PlanStep Float) := fun d v => do
  match ← Decoder.variant v with
  | ("Comment", some payload) => return comment (← Decoder.text d payload)
  | ("Code", some payload) => return code (← MachineCode.ofValue d payload)
  | ("Motion", some payload) => return motion (← Motion.ofValue d payload)
  | (name, _) => .error (.unknownVariant name)

end PlanStep

namespace Plan

def toValue (p : Plan Float) : Value :=
  .record [("steps", .array (p.steps.map PlanStep.toValue)), ("passes", .natural p.passes)]

def ofValue : Decoder (Plan Float) := fun d v => do
  let r ← Record.of [⟨"steps", none⟩, ⟨"passes", none⟩] d v
  return ⟨← r.required d "steps" (.list PlanStep.ofValue), ← r.required d "passes" .natural⟩

end Plan
end BasRelief
