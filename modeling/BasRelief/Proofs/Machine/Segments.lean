import BasRelief.Machine.State

/-!
# Segments of a program

The segments that a machine goes through, line after line. The number of a line labels its segment
and the warnings of its token, and nothing else hangs on it: the same lines further down in a
program give the same segments under later numbers.
-/

namespace BasRelief

/-! ### The number of a line -/

namespace Gcode
variable {α : Type}

def Token.relabel (number : Nat) (t : Token α) : Token α :=
  { t with warnings := t.warnings.map fun w => { w with line := number } }

theorem Occurrence.warning?_relabel (number k : Nat) (o : Occurrence) :
    o.warning? number = (o.warning? k).map fun w => { w with line := number } := by
  unfold warning?
  cases Numeral.read? o.text <;> rfl

variable [Scalar α]

theorem Token.ofText_relabel (number k : Nat) (cs : List Char) :
    (ofText number cs : Token α) = (ofText k cs).relabel number := by
  have hwarnings : (occurrences cs).filterMap (Occurrence.warning? number) =
      ((occurrences cs).filterMap (Occurrence.warning? k)).map
        fun w => { w with line := number } := by
    rw [List.map_filterMap]
    congr 1
    funext o
    exact o.warning?_relabel number k
  simp only [ofText, relabel, hwarnings]

/-- Under another number a line has the same token, but for the labels of its warnings. -/
theorem Token.read?_relabel (number k : Nat) (line : List Char) :
    (read? number line : Option (Token α)) = (read? k line).map (relabel number) := by
  unfold read?
  dsimp only
  split
  · rfl
  · rw [Option.map_some, ofText_relabel number k]

end Gcode

/-! ### Segments -/

/-- The segment of a line that stands `n` lines further down. -/
def Segment.later {α : Type} (n : Nat) (m : Segment α) : Segment α := { m with line := m.line + n }

namespace MachineState
open Gcode
variable {α : Type} [Scalar α]

/-- What the machine reports for the lines of a program that have a token. -/
def segments (tolerance : α) (s : MachineState α) (first : Nat) :
    List (List Char) → List (Segment α)
  | [] => []
  | line :: rest =>
    match Token.read? first line with
    | some t => s.segment tolerance first t :: (s.after t.words).segments tolerance (first + 1) rest
    | none => s.segments tolerance (first + 1) rest

theorem segment_relabel (tolerance : α) (s : MachineState α) (number n k : Nat) (t : Token α) :
    s.segment tolerance (number + n) (t.relabel k) = (s.segment tolerance number t).later n := rfl

theorem segments_later (tolerance : α) (s : MachineState α) (first n : Nat)
    (ls : List (List Char)) :
    s.segments tolerance (first + n) ls = (s.segments tolerance first ls).map (Segment.later n) := by
  induction ls generalizing s first with
  | nil => rfl
  | cons l ls ih =>
    have hnext : first + n + 1 = first + 1 + n := by omega
    rw [segments, segments, Token.read?_relabel (first + n) first, hnext]
    cases (Token.read? first l : Option (Token α)) with
    | none => exact ih s (first + 1)
    | some t =>
      have hsegment := s.segment_relabel tolerance first n (first + n) t
      rw [Option.map_some, List.map_cons, ← ih (s.after t.words) (first + 1)]
      exact congrArg (· :: _) hsegment

end MachineState
end BasRelief
