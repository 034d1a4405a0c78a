import BasRelief.Proofs.Analysis.ModalRun
import BasRelief.Proofs.Machine.Segments
import Mathlib.Data.List.Chain
import Mathlib.Data.List.Forall2

/-!
# Runs of tokens

Where tokens lead a machine hangs on their words alone. The G word of a token decides whether its
segment takes time, the tolerance whether it counts as a movement, and neither finds its way into
the state: a run of movements too small to count arrives where its last words say.
-/

namespace BasRelief
open Gcode

/-- One token of a run: its segment, and the state of the machine before and after it. -/
structure MachineStep (α : Type) where
  before : MachineState α
  segment : Segment α
  after : MachineState α

/-- Two steps through the same states, whose segments differ at most in the line, the G word, the
motion, the movement and the time. -/
structure MachineStep.SameMotion {α : Type} (x y : MachineStep α) : Prop where
  before : x.before = y.before
  after : x.after = y.after
  distance : x.segment.distance = y.segment.distance
  feed : x.segment.feed = y.segment.feed
  words : x.segment.words = y.segment.words
  stop : x.segment.stop = y.segment.stop

variable {α : Type} [Scalar α]

/-- The segment of a step tells its token and the states around it, and takes no time but as a cut
that moves at a feed. -/
structure MachineStep.Tells (tolerance : α) (t : Nat × Token α) (x : MachineStep α) : Prop where
  line : x.segment.line = t.1
  gNumber : x.segment.gNumber = t.2.gNumber
  motion : x.segment.motion = t.2.motion
  words : x.segment.words = t.2.words
  stop : x.segment.stop = x.after.position
  feed : x.segment.feed = x.after.feed
  distance : x.segment.distance = x.before.position.distance x.segment.stop
  moved : x.segment.moved = Scalar.less tolerance x.segment.distance
  time : ¬(t.2.motion = some .cut ∧ Scalar.less tolerance x.segment.distance = true ∧
    Scalar.less Scalar.zero x.segment.feed = true) → x.segment.time = Scalar.zero

namespace MachineState

def step (tolerance : α) (s : MachineState α) (t : Nat × Token α) : MachineStep α :=
  ⟨s, s.segment tolerance t.1 t.2, s.after t.2.words⟩

/-- What a machine goes through when numbered tokens come one after the other. -/
def run (tolerance : α) (s : MachineState α) : List (Nat × Token α) → List (MachineStep α)
  | [] => []
  | t :: ts => s.step tolerance t :: (s.after t.2.words).run tolerance ts

/-! ### One step -/

theorem sameMotion_step (tolerance tolerance' : α) (s : MachineState α) {t u : Nat × Token α}
    (h : t.2.words = u.2.words) : (s.step tolerance t).SameMotion (s.step tolerance' u) := by
  constructor <;> simp only [step, segment, h]

theorem tells_step (tolerance : α) (s : MachineState α) (t : Nat × Token α) :
    (s.step tolerance t).Tells tolerance t where
  line := rfl
  gNumber := rfl
  motion := rfl
  words := rfl
  stop := rfl
  feed := rfl
  distance := rfl
  moved := rfl
  time := fun h => if_neg h

/-! ### A run -/

theorem sameMotion_run (tolerance tolerance' : α) (s : MachineState α) {ts us : List (Nat × Token α)}
    (h : List.Forall₂ (fun t u => t.2.words = u.2.words) ts us) :
    List.Forall₂ MachineStep.SameMotion (s.run tolerance ts) (s.run tolerance' us) := by
  induction h generalizing s with
  | nil => exact .nil
  | @cons t u ts us hwords _ ih =>
    have hone := s.sameMotion_step tolerance tolerance' hwords
    have hrest := ih (s.after t.2.words)
    -- both runs go on from the same state
    refine .cons hone ?_
    rwa [← hwords]

theorem tells_run (tolerance : α) (s : MachineState α) (ts : List (Nat × Token α)) :
    List.Forall₂ (MachineStep.Tells tolerance) ts (s.run tolerance ts) := by
  induction ts generalizing s with
  | nil => exact .nil
  | cons t ts ih => exact .cons (s.tells_step tolerance t) (ih (s.after t.2.words))

theorem isChain_run (tolerance : α) (s : MachineState α) (ts : List (Nat × Token α)) :
    (s.run tolerance ts).IsChain fun x y =>
      y.before = x.after ∧ y.before.position = x.segment.stop := by
  induction ts generalizing s with
  | nil => exact .nil
  | cons t ts ih =>
    have hrest := ih (s.after t.2.words)
    cases ts with
    | nil => exact .singleton _
    | cons u ts => exact List.isChain_cons_cons.mpr ⟨⟨rfl, rfl⟩, hrest⟩

theorem run_append (tolerance : α) (s : MachineState α) (ts us : List (Nat × Token α)) :
    s.run tolerance (ts ++ us) =
      s.run tolerance ts ++ (ts.foldl (fun s t => s.after t.2.words) s).run tolerance us := by
  induction ts generalizing s with
  | nil => rfl
  | cons t ts ih =>
    rw [List.cons_append, run, run, ih, List.foldl_cons, List.cons_append]

end MachineState

namespace Modal

def state (ts : List (Token α)) : MachineState α := ⟨position ts, feed ts⟩

theorem foldl_after_start (ts : List (Nat × Token α)) :
    ts.foldl (fun s t => s.after t.2.words) MachineState.start = state (ts.map Prod.snd) := by
  induction ts using List.reverseRecOn with
  | nil => rfl
  | append_singleton ts t ih =>
    rw [List.foldl_append, ih, List.map_append]
    exact after_snoc (ts.map Prod.snd) t.2

/-- Around each token the machine is where the tokens before it and those up to it say. -/
theorem map_states_run (tolerance : α) (ts : List (Nat × Token α)) :
    (MachineState.start.run tolerance ts).map (fun x => (x.before, x.after)) =
      (moments (ts.map Prod.snd)).map fun m => (state m.before, state m.upTo) := by
  induction ts using List.reverseRecOn with
  | nil => rfl
  | append_singleton ts t ih =>
    have hlast : (state (ts.map Prod.snd)).after t.2.words = state (ts.map Prod.snd ++ [t.2]) :=
      after_snoc (ts.map Prod.snd) t.2
    rw [MachineState.run_append, foldl_after_start, List.map_append, ih, List.map_append,
      List.map_singleton, moments_snoc, List.map_append]
    exact congrArg (fun s => _ ++ [(_, s)]) hlast

end Modal

namespace MachineState

/-- Two machines that read the same words go through the same states, under any classification of
the lines and any tolerances. -/
theorem motion_follows_words {ts us : List (Nat × Token α)}
    (h : List.Forall₂ (fun t u => t.2.words = u.2.words) ts us) (tolerance tolerance' : α) :
    List.Forall₂ MachineStep.SameMotion (start.run tolerance ts) (start.run tolerance' us) ∧
      (start.run tolerance ts).IsChain
        (fun x y => y.before = x.after ∧ y.before.position = x.segment.stop) ∧
      List.Forall₂ (MachineStep.Tells tolerance) ts (start.run tolerance ts) ∧
      (start.run tolerance ts).map (fun x => (x.before, x.after)) =
        (Modal.moments (ts.map Prod.snd)).map fun m => (Modal.state m.before, Modal.state m.upTo) :=
  ⟨start.sameMotion_run tolerance tolerance' h, start.isChain_run tolerance ts,
    start.tells_run tolerance ts, Modal.map_states_run tolerance ts⟩

/-- Three moves of a quarter, each too small for a tolerance of a half. -/
def smallMoves : List (Nat × Token Rat) :=
  [(1, { words := { x := some (1 / 4) } }), (2, { words := { x := some (1 / 2), f := some 60 } }),
    (3, { words := { x := some (3 / 4) } })]

/-- The same words as cuts, one of them after a value that was skipped. -/
def smallCuts : List (Nat × Token Rat) :=
  [(1, { gNumber := some 1, motion := some .cut, words := { x := some (1 / 4) } }),
    (4, { gNumber := some 1, motion := some .cut, words := { x := some (1 / 2), f := some 60 }
          warnings := [⟨4, 'Y', ".."⟩] }),
    (5, { gNumber := some 1, motion := some .cut, words := { x := some (3 / 4) } })]

theorem smallCuts_motion :
    List.Forall₂ (fun t u => t.2.words = u.2.words) smallMoves smallCuts ∧
      List.Forall₂ MachineStep.SameMotion (start.run (1 / 2) smallMoves) (start.run 0 smallCuts) ∧
      ((start.run (1 / 2) smallMoves).map fun x =>
        (x.after.position.x, x.segment.moved, x.segment.time)) =
          [(1 / 4, false, 0), (1 / 2, false, 0), (3 / 4, false, 0)] ∧
      ((start.run 0 smallCuts).map fun x =>
        (x.after.position.x, x.segment.moved, x.segment.time)) =
          [(1 / 4, true, 0), (1 / 2, true, 1 / 4), (3 / 4, true, 1 / 4)] := by
  have h : List.Forall₂ (fun t u => t.2.words = u.2.words) smallMoves smallCuts :=
    .cons rfl (.cons rfl (.cons rfl .nil))
  exact ⟨h, (motion_follows_words h (1 / 2) 0).1, by decide +kernel, by decide +kernel⟩

end MachineState
end BasRelief
