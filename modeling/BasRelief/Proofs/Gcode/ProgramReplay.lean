import BasRelief.Machine.State
import BasRelief.Proofs.Gcode.ExactRoundTrip
import BasRelief.Proofs.Gcode.ProgramLines

/-!
# The lines of a plan, replayed by a machine

A machine that reads the lines of a plan goes where the plan goes, with every coordinate rounded to
the thousandth. The relation between the two positions holds at the origin and is kept by each
step, as long as no comment goes on after a line feed: what stands there is read as a line.
-/

namespace BasRelief
open Exact Gcode

/-! ### Two ways to follow a program -/

namespace MachineState
variable {α : Type} [Scalar α]

/-- A line without a token leaves the machine as it is. -/
def afterLine (s : MachineState α) (number : Nat) (line : List Char) : MachineState α :=
  match Token.read? number line with
  | some t => s.after t.words
  | none => s

/-- The position after each line, the lines numbered from `first`. -/
def positions (s : MachineState α) (first : Nat) : List (List Char) → List (Position α)
  | [] => []
  | line :: rest =>
    let next := s.afterLine first line
    next.position :: next.positions (first + 1) rest

end MachineState

namespace PlanStep
variable {α : Type}

def move (p : Position α) : PlanStep α → Position α
  | .motion m => m.target.move p
  | _ => p

/-- The position after each step; an axis that a step does not name keeps its value. -/
def positions (p : Position α) : List (PlanStep α) → List (Position α)
  | [] => []
  | step :: rest => step.move p :: positions (step.move p) rest

end PlanStep

structure Position.Rounded (p q : Position Rat) : Prop where
  x : NearestThousandth p.x q.x
  y : NearestThousandth p.y q.y
  z : NearestThousandth p.z q.z

theorem Exact.nearestThousandth_zero : NearestThousandth Scalar.zero Scalar.zero := by
  have hzero : (Scalar.zero : Rat) = 0 := by
    show ((0 : Nat) : Rat) = 0
    norm_num
  rw [hzero]
  exact ⟨0, by norm_num, by norm_num, by norm_num⟩

theorem Position.rounded_origin : Position.origin.Rounded Position.origin :=
  ⟨nearestThousandth_zero, nearestThousandth_zero, nearestThousandth_zero⟩

/-! ### One step -/

theorem rounded_getD {v r : Rat} (h : NearestThousandth v r) (target : Option Rat) :
    NearestThousandth (target.getD v) ((target.map thousandths).getD r) := by
  cases target with
  | none => exact h
  | some t => exact nearestThousandth_thousandths t

theorem rounded_afterLine {p : Position Rat} {s : MachineState Rat} (h : p.Rounded s.position)
    (annotate : Bool) (number : Nat) {step : PlanStep Rat} (hstep : step.HasNoLineFeed) :
    (step.move p).Rounded
      (s.afterLine number (stepLine annotate step).toList).position := by
  rw [MachineState.afterLine, read?_stepLine number annotate hstep]
  cases step with
  | comment text => exact h
  | code c => exact h
  | motion m =>
    show (m.target.move p).Rounded ((motionToken m).words.move s.position)
    rw [words_motionToken_exact]
    exact ⟨rounded_getD h.x m.target.x, rounded_getD h.y m.target.y, rounded_getD h.z m.target.z⟩

/-! ### A whole program -/

theorem rounded_positions {p : Position Rat} {s : MachineState Rat} (h : p.Rounded s.position)
    (annotate : Bool) {steps : List (PlanStep Rat)} (hsteps : ∀ step ∈ steps, step.HasNoLineFeed)
    (first : Nat) :
    List.Forall₂ Position.Rounded (PlanStep.positions p steps)
      (s.positions first (steps.map fun step => (stepLine annotate step).toList)) := by
  -- the relation between plan and machine is carried from each step to the next
  induction steps generalizing p s first with
  | nil => exact .nil
  | cons step rest ih =>
    have hone := rounded_afterLine h annotate first (hsteps step List.mem_cons_self)
    exact .cons hone (ih hone (fun t ht => hsteps t (List.mem_cons_of_mem _ ht)) (first + 1))

/-- Emission and reading in exact arithmetic. The line of a move with no feed or one that is not
negative gives back the move to the thousandth, and never shows a negative zero. The lines of a plan
whose comments hold no line feed lead a machine through the positions of the plan, rounded. -/
theorem emission_recovers_moves (plan : Plan Rat) (annotate : Bool) :
    (∀ (m : Motion Rat) (number : Nat), (∀ f ∈ m.feed, 0 ≤ f) →
      (∃ t, Token.read? number (motionLine m).toList = some t ∧ Recovers m t) ∧
      ∀ o ∈ occurrences (motionLine m).toList, ∀ n, Numeral.read? o.text = some n →
        n.coefficient = 0 → n.negative = false) ∧
    ((∀ step ∈ plan.steps, step.HasNoLineFeed) →
      List.Forall₂ Position.Rounded (PlanStep.positions .origin plan.steps)
        (MachineState.start.positions 1 ((lines annotate plan).map String.toList))) := by
  constructor
  case left =>
    intro m number hfeed
    refine ⟨⟨motionToken m, read?_motionLine number m, recovers_motionToken hfeed⟩, ?_⟩
    intro o ho n hn hzero
    exact unsigned_zero_of_mem_motionWords hfeed (mem_motionWords_of_occurrences ho) hn hzero
  case right =>
    intro hsteps
    rw [lines, List.map_map]
    exact rounded_positions Position.rounded_origin annotate hsteps 1

def sampleCut : Motion Rat := .cut ⟨some (1 / 2), some (-1 / 2000), some (-3)⟩ (some (2501 / 2))

theorem sampleCut_recovered :
    (∃ t, Token.read? 1 (motionLine sampleCut).toList = some t ∧ Recovers sampleCut t) ∧
      List.Forall₂ Position.Rounded
        (PlanStep.positions .origin [.comment "note", .motion sampleCut])
        (MachineState.start.positions 1
          ((lines true ⟨[.comment "note", .motion sampleCut], 0⟩).map String.toList)) := by
  obtain ⟨hmoves, hplan⟩ :=
    emission_recovers_moves ⟨[.comment "note", .motion sampleCut], 0⟩ true
  have hfeed : ∀ f ∈ sampleCut.feed, 0 ≤ f := by
    rintro f ⟨⟩
    norm_num
  have hsteps : ∀ step ∈ [PlanStep.comment "note", .motion sampleCut], step.HasNoLineFeed := by
    intro step h
    simp only [List.mem_cons, List.not_mem_nil, or_false] at h
    obtain rfl | rfl := h
    · show '\n' ∉ "note".toList
      decide
    · trivial
  exact ⟨(hmoves sampleCut 1 hfeed).1, hplan hsteps⟩

/-- The rest of a comment after a line feed is read as a move, so the machine leaves the origin
where the plan does not. -/
theorem comment_line_feed_moves :
    ¬ List.Forall₂ Position.Rounded
      (PlanStep.positions .origin [.comment "note\nG1 X5"])
      (MachineState.start.positions 1
        ((lines true (⟨[.comment "note\nG1 X5"], 0⟩ : Plan Rat)).map String.toList)) := by
  have hmove : (MachineState.start.afterLine 1
      (stepLine true (.comment "note\nG1 X5" : PlanStep Rat)).toList).position.x = (5 : Rat) := by
    decide +kernel
  intro h
  obtain ⟨⟨k, hk, hnear⟩, _, _⟩ := (List.forall₂_cons.mp h).1
  have hfar : (k : Rat) = 5000 := by
    have hx := hmove.symm.trans hk
    linarith
  have hbound := hnear.near
  rw [hfar] at hbound
  exact absurd hbound (by decide +kernel)

end BasRelief
