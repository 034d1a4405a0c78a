import BasRelief.Toolpath.Plan

/-!
# Replays

Where a list of moves takes the machine. A leg is a move together with the position it starts
from, so a statement about every leg of a replay is a statement about every moment of the program.
-/

namespace BasRelief

/-- Whether a move to the target may leave the vertical line that it starts on. -/
def Target.namesPlane {α : Type} (t : Target α) : Bool := t.x.isSome || t.y.isSome

structure Leg (α : Type) where
  start : Position α
  motion : Motion α

namespace Leg
variable {α : Type}

def stop (l : Leg α) : Position α := l.motion.target.move l.start

/-- A rapid that names X or Y runs at the safe height from its start to its end. -/
def Clear (safeZ : α) (l : Leg α) : Prop :=
  l.motion.isRapid = true → l.motion.target.namesPlane = true →
    l.start.z = safeZ ∧ l.stop.z = safeZ

end Leg

namespace Motion
variable {α : Type}

def replay (p : Position α) (ms : List (Motion α)) : Position α :=
  ms.foldl (fun q m => m.target.move q) p

def legs : Position α → List (Motion α) → List (Leg α)
  | _, [] => []
  | p, m :: ms => ⟨p, m⟩ :: legs (m.target.move p) ms

@[simp] theorem replay_nil (p : Position α) : replay p [] = p := rfl

@[simp] theorem replay_cons (p : Position α) (m : Motion α) (ms : List (Motion α)) :
    replay p (m :: ms) = replay (m.target.move p) ms := rfl

theorem replay_append (p : Position α) (a b : List (Motion α)) :
    replay p (a ++ b) = replay (replay p a) b := by
  simp only [replay, List.foldl_append]

@[simp] theorem legs_nil (p : Position α) : legs p [] = [] := rfl

@[simp] theorem legs_cons (p : Position α) (m : Motion α) (ms : List (Motion α)) :
    legs p (m :: ms) = ⟨p, m⟩ :: legs (m.target.move p) ms := rfl

theorem legs_append (p : Position α) (a b : List (Motion α)) :
    legs p (a ++ b) = legs p a ++ legs (replay p a) b := by
  induction a generalizing p with
  | nil => rfl
  | cons m ms ih => simp only [List.cons_append, legs_cons, replay_cons, ih]

theorem legs_map_motion (p : Position α) (ms : List (Motion α)) :
    (legs p ms).map Leg.motion = ms := by
  induction ms generalizing p with
  | nil => rfl
  | cons m ms ih => simp only [legs_cons, List.map_cons, ih]

theorem motion_mem_of_mem_legs {p : Position α} {ms : List (Motion α)} {l : Leg α}
    (h : l ∈ legs p ms) : l.motion ∈ ms := by
  have hm := List.mem_map_of_mem (f := Leg.motion) h
  rwa [legs_map_motion] at hm

theorem forall_legs_append {P : Leg α → Prop} {p : Position α} {a b : List (Motion α)}
    (ha : ∀ l ∈ legs p a, P l) (hb : ∀ l ∈ legs (replay p a) b, P l) :
    ∀ l ∈ legs p (a ++ b), P l := by
  intro l hl
  rw [legs_append] at hl
  rcases List.mem_append.1 hl with hl | hl
  · exact ha l hl
  · exact hb l hl

theorem clear_of_no_traverse {safeZ : α} {ms : List (Motion α)}
    (h : ∀ m ∈ ms, m.isRapid = true → m.target.namesPlane = false) (p : Position α) :
    ∀ l ∈ legs p ms, l.Clear safeZ := by
  intro l hl hr hp
  have hn := h l.motion (motion_mem_of_mem_legs hl) hr
  rw [hn] at hp
  cases hp

end Motion
end BasRelief
