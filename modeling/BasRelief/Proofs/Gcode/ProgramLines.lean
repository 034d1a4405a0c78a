import BasRelief.Proofs.Gcode.MotionLine
import BasRelief.Proofs.Text.LineCut
import BasRelief.Proofs.Analysis.Modal

/-!
# The lines of a program are read as its steps

A comment is a line without a token, a machine code gives its G number if it has one, and a move
gives its token. So the tokens of a program are those of the steps of its plan, line by line.
-/

namespace BasRelief

/-! ### What a step says -/

/-- The number after the G of a machine code; the codes with an M have none. -/
def MachineCode.gNumber? : MachineCode → Option Nat
  | .unitsMillimeters => some 21
  | .absolutePositioning => some 90
  | .planeXY => some 17
  | _ => none

theorem MachineCode.gNumber?_ne (c : MachineCode) {n : Nat} (h : n ≤ 1) : c.gNumber? ≠ some n := by
  intro heq
  cases c <;> simp only [gNumber?, Option.some.injEq, reduceCtorEq] at heq <;> omega

def PlanStep.IsOneLine {α : Type} : PlanStep α → Prop
  | .comment text => Text.IsLine text.toList
  | _ => True

/-- What a line needs to be read as its step: nothing follows the comment on a line of its own. -/
def PlanStep.HasNoLineFeed {α : Type} : PlanStep α → Prop
  | .comment text => '\n' ∉ text.toList
  | _ => True

theorem PlanStep.IsOneLine.hasNoLineFeed {α : Type} {s : PlanStep α} (h : s.IsOneLine) :
    s.HasNoLineFeed := by
  cases s with
  | comment text => exact fun hmem => (h '\n' hmem).1 rfl
  | code => trivial
  | motion => trivial

namespace Gcode
variable {α : Type} [Scalar α]

def codeToken (c : MachineCode) : Token α where
  gNumber := c.gNumber?
  motion := c.gNumber?.map fun _ => .other

/-- The token of a step, if its line has one. -/
def stepToken? : PlanStep α → Option (Token α)
  | .comment _ => none
  | .code c => some (codeToken c)
  | .motion m => some (motionToken m)

/-- The tokens with the number of a move are those of the moves with it. -/
theorem filter_stepTokens {n : Nat} {p : Motion α → Bool} (hn : n ≤ 1)
    (hmotion : ∀ m : Motion α, p m = decide (m.gNumber = n)) (steps : List (PlanStep α)) :
    (steps.filterMap stepToken?).filter (fun t => t.gNumber = some n) =
      ((steps.filterMap PlanStep.motion?).filter p).map motionToken := by
  induction steps with
  | nil => rfl
  | cons s steps ih =>
    cases s with
    | comment text => exact ih
    | code c =>
      have htoken : (codeToken c : Token α).gNumber ≠ some n := c.gNumber?_ne hn
      show List.filter _ (codeToken c :: steps.filterMap stepToken?) = _
      rw [List.filter_cons_of_neg (by simpa using htoken), ih]
      rfl
    | motion m =>
      have htoken : ((motionToken m).gNumber = some n) = (m.gNumber = n) := by simp [motionToken]
      show List.filter _ (motionToken m :: steps.filterMap stepToken?) =
        (List.filter p (m :: steps.filterMap PlanStep.motion?)).map motionToken
      simp only [List.filter_cons, ih, htoken, hmotion m]
      split <;> rfl

theorem filter_cut_stepTokens (steps : List (PlanStep α)) :
    (steps.filterMap stepToken?).filter (fun t => t.gNumber = some 1) =
      ((steps.filterMap PlanStep.motion?).filter Motion.isCut).map motionToken := by
  apply filter_stepTokens (by decide)
  intro m
  cases m <;> rfl

theorem filter_rapid_stepTokens (steps : List (PlanStep α)) :
    (steps.filterMap stepToken?).filter (fun t => t.gNumber = some 0) =
      ((steps.filterMap PlanStep.motion?).filter Motion.isRapid).map motionToken := by
  apply filter_stepTokens (by decide)
  intro m
  cases m <;> rfl

/-! ### Reading the line of a step -/

/-- The meaning beside a code is a comment, and the word of the code names no axis. -/
theorem read?_codeLine (number : Nat) (annotate : Bool) (c : MachineCode) :
    Token.read? number (codeLine annotate c).toList = some (codeToken c : Token α) := by
  have htrim : Text.trim (stripComment (codeLine annotate c).toList) = c.word.toList := by
    cases annotate <;> cases c <;> decide
  have hne : c.word.toList ≠ [] := by
    cases c <;> decide
  have hfound : occurrences c.word.toList = [] := by
    cases c <;> decide
  have hnumber : (gDigits? c.word.toList).bind gNumber? = c.gNumber? := by
    cases c <;> decide
  have hmotion : (gDigits? c.word.toList).map Token.motionOf = c.gNumber?.map fun _ => .other := by
    cases c <;> decide
  rw [Token.read?, htrim, if_neg hne, Token.ofText, hfound, hnumber, hmotion]
  rfl

theorem read?_comment (number : Nat) {text : String} (h : '\n' ∉ text.toList) :
    (Token.read? number ("; " ++ text).toList : Option (Token α)) = none := by
  have hchars : ("; " ++ text).toList = ';' :: ' ' :: text.toList := by
    rw [String.toList_append]
    rfl
  have hrest : (';' :: ' ' :: text.toList).dropWhile (· != '\n') = [] := by
    apply List.dropWhile_eq_nil_iff.mpr
    intro c hc
    have hline : c ≠ '\n' := by
      simp only [List.mem_cons] at hc
      obtain rfl | rfl | hc := hc
      · decide
      · decide
      · rintro rfl
        exact h hc
    simpa using hline
  have hstrip : stripComment (';' :: ' ' :: text.toList) = [] := by
    have hstart : startsComment ';' = true := by decide
    rw [stripComment, List.takeWhile_cons_of_neg (by simp [hstart]),
      List.dropWhile_cons_of_neg (by simp [hstart]), hrest, List.append_nil]
  rw [Token.read?, hchars, hstrip]
  rfl

theorem read?_stepLine [PrintsValues α] (number : Nat) (annotate : Bool) {s : PlanStep α}
    (h : s.HasNoLineFeed) : Token.read? number (stepLine annotate s).toList = stepToken? s := by
  cases s with
  | comment text => exact read?_comment number h
  | code c => exact read?_codeLine number annotate c
  | motion m => exact read?_motionLine number m

/-! ### Lines -/

theorem ne_of_solid {c : Char} (h : isSolid c = true) : c ≠ '\n' ∧ c ≠ '\r' := by
  have hblank := isBlank_of_solid h
  constructor
  · rintro rfl
    exact absurd hblank (by decide)
  · rintro rfl
    exact absurd hblank (by decide)

theorem isLine_motionLine [PrintsValues α] (m : Motion α) : Text.IsLine (motionLine m).toList := by
  intro c hc
  obtain hsolid | rfl := solid_or_space_of_mem_motionLine hc
  · exact ne_of_solid hsolid
  · decide

theorem isLine_stepLine [PrintsValues α] (annotate : Bool) {s : PlanStep α} (h : s.IsOneLine) :
    Text.IsLine (stepLine annotate s).toList := by
  cases s with
  | comment text =>
    have hhead : Text.IsLine "; ".toList := by decide
    show Text.IsLine ("; " ++ text).toList
    rw [String.toList_append]
    exact hhead.append h
  | code c =>
    show Text.IsLine (codeLine annotate c).toList
    cases annotate <;> cases c <;> decide
  | motion m => exact isLine_motionLine m

theorem toList_program (p : Plan α) :
    (program p).toList = ((lines true p).map String.toList).flatMap fun l => l ++ ['\n'] := by
  rw [program, String.toList_join, List.flatMap_map, List.flatMap_map]
  simp only [String.toList_append]
  rfl

theorem lines_program [PrintsValues α] {p : Plan α} (h : ∀ s ∈ p.steps, s.IsOneLine) :
    Text.lines (program p).toList = (lines true p).map String.toList := by
  rw [toList_program]
  apply Text.lines_flatMap
  intro l hl
  simp only [lines, List.map_map, List.mem_map] at hl
  obtain ⟨s, hs, rfl⟩ := hl
  exact isLine_stepLine true (h s hs)

theorem tokens_stepLines [PrintsValues α] (annotate : Bool) {steps : List (PlanStep α)}
    (h : ∀ s ∈ steps, s.IsOneLine) (first : Nat) :
    Modal.tokens first (steps.map fun s => (stepLine annotate s).toList) =
      steps.filterMap stepToken? := by
  induction steps generalizing first with
  | nil => rfl
  | cons s steps ih =>
    have hs := read?_stepLine first annotate (h s List.mem_cons_self).hasNoLineFeed
    have hrest := ih (fun t ht => h t (List.mem_cons_of_mem _ ht)) (first + 1)
    rw [List.map_cons, Modal.tokens_cons, hs, hrest, List.filterMap_cons]
    cases (stepToken? s : Option (Token α)) <;> rfl

/-- The tokens of a program are the tokens of the steps of its plan. -/
theorem tokens_program [PrintsValues α] {p : Plan α} (h : ∀ s ∈ p.steps, s.IsOneLine) :
    Modal.tokens 1 (Text.lines (program p).toList) = p.steps.filterMap stepToken? := by
  rw [lines_program h, lines, List.map_map]
  exact tokens_stepLines true h 1

end Gcode
end BasRelief
