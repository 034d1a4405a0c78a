import BasRelief.Proofs.Analysis.Generated
import BasRelief.Proofs.Analysis.Silence
import BasRelief.Proofs.Text.ClosedText
import Mathlib.Data.List.Perm.Basic

/-!
# The lines of any plan

A plan is written with one line for each step, and read with the lines that the line feeds of its
comments add. The first line of a step has the token of the step, so what a program says is what the
steps say and what the added lines say. A plan whose comments hold no line feed is therefore counted
as it was made, whatever else they hold.
-/

namespace BasRelief
open Gcode

/-! ### What comments hold -/

/-- The line of the step is read as it was written. -/
def PlanStep.KeepsLine {α : Type} : PlanStep α → Prop
  | .comment text => '\n' ∉ text.toList ∧ text.toList.getLast? ≠ some '\r'
  | _ => True

/-- The lines that a step is read with besides its own. -/
def PlanStep.addedLines {α : Type} : PlanStep α → List (List Char)
  | .comment text => Text.addedLines text.toList
  | _ => []

def Plan.addedLines {α : Type} (p : Plan α) : List (List Char) :=
  p.steps.flatMap PlanStep.addedLines

theorem PlanStep.addedLines_eq_nil_iff {α : Type} {s : PlanStep α} :
    s.addedLines = [] ↔ s.HasNoLineFeed := by
  cases s with
  | comment text => exact Text.addedLines_eq_nil_iff
  | code c => exact iff_of_true rfl trivial
  | motion m => exact iff_of_true rfl trivial

theorem Plan.addedLines_eq_nil_iff {α : Type} {p : Plan α} :
    p.addedLines = [] ↔ ∀ s ∈ p.steps, s.HasNoLineFeed := by
  simp only [Plan.addedLines, List.flatMap_eq_nil_iff, PlanStep.addedLines_eq_nil_iff]

namespace Gcode
variable {α : Type} [Scalar α]

/-! ### The lines of one step -/

theorem toList_comment (text : String) : ("; " ++ text).toList = [';', ' '] ++ text.toList :=
  String.toList_append

theorem stepLine_keeps_iff [PrintsValues α] (annotate : Bool) (s : PlanStep α) :
    ('\n' ∉ (stepLine annotate s).toList ∧ (stepLine annotate s).toList.getLast? ≠ some '\r') ↔
      s.KeepsLine := by
  have hline (hs : s.IsOneLine) :
      '\n' ∉ (stepLine annotate s).toList ∧ (stepLine annotate s).toList.getLast? ≠ some '\r' := by
    have hone := isLine_stepLine annotate hs
    exact ⟨fun h => (hone _ h).1 rfl, fun h => (hone _ (List.mem_of_getLast? h)).2 rfl⟩
  cases s with
  | comment text =>
    show ('\n' ∉ ("; " ++ text).toList ∧ ("; " ++ text).toList.getLast? ≠ some '\r') ↔
      '\n' ∉ text.toList ∧ text.toList.getLast? ≠ some '\r'
    rw [toList_comment, List.getLast?_append]
    cases hlast : text.toList.getLast? <;> simp
  | code c => exact iff_of_true (hline trivial) trivial
  | motion m => exact iff_of_true (hline trivial) trivial

theorem addedLines_stepLine [PrintsValues α] (annotate : Bool) (s : PlanStep α) :
    Text.addedLines (stepLine annotate s).toList = s.addedLines := by
  have hline (hs : s.IsOneLine) : Text.addedLines (stepLine annotate s).toList = [] :=
    Text.addedLines_eq_nil_iff.mpr fun h => (isLine_stepLine annotate hs _ h).1 rfl
  cases s with
  | comment text =>
    show Text.addedLines ("; " ++ text).toList = Text.addedLines text.toList
    rw [toList_comment]
    exact Text.addedLines_append (by decide) _
  | code c => exact hline trivial
  | motion m => exact hline trivial

theorem isSilent_comment {text : List Char} (h : '\n' ∉ text) : IsSilent (';' :: text) := by
  have hstrip : stripComment ([] ++ ';' :: text) = stripComment [] :=
    stripComment_append_comment List.not_mem_nil (by decide) h
  rw [List.nil_append, stripComment_nil] at hstrip
  rw [IsSilent, hstrip]
  exact fun c hc => absurd hc List.not_mem_nil

/-- The first line of a step: up to the first line feed, without a carriage return before it. -/
def firstLine (annotate : Bool) (s : PlanStep α) : List Char :=
  Text.withoutReturn '\r' ((stepLine annotate s).toList.takeWhile (· != '\n'), true)

theorem read?_firstLine [PrintsValues α] (number : Nat) (annotate : Bool) (s : PlanStep α) :
    Token.read? number (firstLine annotate s) = stepToken? s := by
  have hline (hs : s.IsOneLine) : firstLine annotate s = (stepLine annotate s).toList := by
    have hone := isLine_stepLine annotate hs
    rw [firstLine, Text.takeWhile_ne_feed fun h => (hone _ h).1 rfl,
      Text.withoutReturn_of_isLine hone]
  cases s with
  | comment text =>
    -- the semicolon stands, and no line feed comes after it
    show Token.read? number (Text.withoutReturn '\r'
      (("; " ++ text).toList.takeWhile (· != '\n'), true)) = none
    rw [toList_comment, Token.read?_eq_none_iff]
    show IsSilent (Text.withoutReturn '\r'
      (';' :: ' ' :: text.toList.takeWhile (· != '\n'), true))
    rw [Text.withoutReturn_cons (by decide)]
    refine isSilent_comment fun h => ?_
    have hfront := Text.mem_of_mem_withoutReturn h
    rw [List.mem_cons] at hfront
    obtain hblank | hfront := hfront
    · exact absurd hblank (by decide)
    · exact absurd (List.mem_takeWhile_imp hfront) (by decide)
  | code c =>
    rw [hline trivial]
    exact read?_codeLine number annotate c
  | motion m =>
    rw [hline trivial]
    exact read?_motionLine number m

/-- A comment that holds line feeds says nothing if only blanks follow the first of them. -/
theorem read?_comment_eq_none_iff (number : Nat) (text : String) :
    (Token.read? number ("; " ++ text).toList : Option (Token α)) = none ↔
      ∀ c ∈ text.toList.dropWhile (· != '\n'), Text.isBlank c = true := by
  have hstrip : stripComment ([';', ' '] ++ text.toList) =
      text.toList.dropWhile (· != '\n') := rfl
  rw [Token.read?_eq_none_iff, IsSilent, toList_comment, hstrip]

/-! ### The lines of a plan -/

section
variable [PrintsValues α] (p : Plan α)

theorem lines_program_eq_iff :
    Text.lines (program p).toList = (lines true p).map String.toList ↔
      ∀ s ∈ p.steps, s.KeepsLine := by
  rw [toList_program, Text.lines_flatMap_eq_self_iff, lines, List.map_map, List.forall_mem_map]
  simp only [Function.comp, stepLine_keeps_iff]

/-- Each step is read as its first line and the lines that it adds. -/
theorem lines_program_eq_flatMap :
    Text.lines (program p).toList =
      p.steps.flatMap fun s => firstLine true s :: s.addedLines := by
  rw [toList_program, Text.lines_flatMap_closed, lines, List.map_map, List.flatMap_map]
  simp only [Function.comp, Text.lines_closed, addedLines_stepLine]
  rfl

theorem length_lines_program :
    (Text.lines (program p).toList).length = p.length + p.addedLines.length := by
  rw [lines_program_eq_flatMap, Plan.length, Plan.addedLines]
  induction p.steps with
  | nil => rfl
  | cons s steps ih =>
    simp only [List.flatMap_cons, List.length_append, List.length_cons, ih]
    omega

/-- What a program says: what its steps say, and what the added lines say in between. -/
theorem statements_program :
    (Modal.statements (Text.lines (program p).toList)).Perm
      (p.steps.filterMap stepToken? ++ Modal.statements (α := α) p.addedLines) := by
  have hsteps : Modal.statements (Text.lines (program p).toList) =
      p.steps.flatMap fun s => (stepToken? s).toList ++ Modal.statements s.addedLines := by
    rw [lines_program_eq_flatMap, Modal.statements, List.filterMap_flatMap]
    congr
    funext s
    rw [← read?_firstLine 0 true s]
    exact Modal.statements_cons _ _
  have hadded : (Modal.statements p.addedLines : List (Token α)) =
      p.steps.flatMap fun s => Modal.statements s.addedLines := by
    rw [Plan.addedLines, Modal.statements, List.filterMap_flatMap]
    rfl
  rw [hsteps, hadded, List.filterMap_eq_flatMap_toList]
  exact (List.flatMap_append_perm p.steps _ _).symm

end
end Gcode

/-! ### The report -/

/-- The report counts the steps and the moves of a plan, and what another report counts. -/
structure AnalysisReport.CountsWith {α : Type} (r : AnalysisReport α) (p : Plan α)
    (added : AnalysisReport α) : Prop where
  linesRead : r.summary.linesRead = p.length + added.summary.linesRead
  cutMoves : r.summary.cutMoves = p.cutCount + added.summary.cutMoves
  rapidMoves : r.summary.rapidMoves = p.rapidCount + added.summary.rapidMoves
  warnings : r.summary.warnings = added.summary.warnings

section
variable {α : Type} [Scalar α] [PrintsValues α]

theorem countsWith_addedLines (p : Plan α) (limits : AnalysisLimits α) :
    (analyzeText limits (program p).toList).CountsWith p (analyzeLines limits p.addedLines) := by
  have hsaid := Gcode.statements_program p
  rw [analyzeText, analyzeLines_eq_statements, analyzeLines_eq_statements]
  refine ⟨length_lines_program p, ?_, ?_, ?_⟩
  · show List.countP _ _ = _
    rw [hsaid.countP_eq, List.countP_append, countP_cut_stepTokens]
    rfl
  · show List.countP _ _ = _
    rw [hsaid.countP_eq, List.countP_append, countP_rapid_stepTokens]
    rfl
  · show (List.flatMap _ _).length = _
    rw [(hsaid.flatMap_right _).length_eq, List.flatMap_append, warnings_stepTokens]
    rfl

/-- What is read of a plan that was written: its lines exactly if no comment holds a line feed or
ends in a carriage return, and its steps and moves with what the line feeds of its comments add.
Without a line feed nothing is added and every comment is silent. -/
theorem program_read_by_steps (p : Plan α) (limits : AnalysisLimits α) :
    (Text.lines (program p).toList = (lines true p).map String.toList ↔
      ∀ s ∈ p.steps, s.KeepsLine) ∧
    (∀ (text : String) (number : Nat),
      (Token.read? number (stepLine true (.comment text : PlanStep α)).toList :
          Option (Token α)) = none ↔
        ∀ c ∈ text.toList.dropWhile (· != '\n'), Text.isBlank c = true) ∧
    (analyzeText limits (program p).toList).CountsWith p (analyzeLines limits p.addedLines) ∧
    ((∀ s ∈ p.steps, s.HasNoLineFeed) →
      (Text.lines (program p).toList).length = p.length ∧
      (∀ s ∈ p.steps, s.isComment = true → ∀ number,
        (Token.read? number (stepLine true s).toList : Option (Token α)) = none) ∧
      (analyzeText limits (program p).toList).summary.cutMoves = p.cutCount ∧
      (analyzeText limits (program p).toList).summary.rapidMoves = p.rapidCount) := by
  have hcounts := countsWith_addedLines p limits
  refine ⟨lines_program_eq_iff p, fun text number => read?_comment_eq_none_iff number text,
    hcounts, fun hfeed => ?_⟩
  have hlength := length_lines_program p
  rw [Plan.addedLines_eq_nil_iff.mpr hfeed] at hcounts hlength
  refine ⟨hlength, fun s hs hcomment number => ?_, hcounts.cutMoves, hcounts.rapidMoves⟩
  rw [read?_stepLine number true (hfeed s hs)]
  cases s with
  | comment text => rfl
  | code c => cases hcomment
  | motion m => cases hcomment

end

/-! ### Two plans with comments -/

/-- Carriage returns in a comment are no line ends. -/
def returningPlan : Plan Float :=
  ((Plan.empty.push (.comment "first\rpass\r")).push (.code .spindleOn)).extend
    [.traverse (.xy 1 2), .carve (.zOnly (-0.5)) 300]

theorem returningPlan_read :
    (∀ s ∈ returningPlan.steps, s.HasNoLineFeed) ∧
      (Text.lines (program returningPlan).toList).length = 4 ∧
      (analyzeText ({} : AnalyzerSettings).limits
        (program returningPlan).toList).summary.cutMoves = 1 ∧
      (analyzeText ({} : AnalyzerSettings).limits
        (program returningPlan).toList).summary.rapidMoves = 1 := by
  have hfeed : ∀ s ∈ returningPlan.steps, s.HasNoLineFeed := by
    intro s hs
    simp only [returningPlan, Plan.extend, Plan.push, Plan.append, Plan.empty, List.nil_append,
      List.map_cons, List.map_nil, List.cons_append, List.mem_cons, List.not_mem_nil,
      or_false] at hs
    obtain rfl | rfl | rfl | rfl := hs
    · show '\n' ∉ "first\rpass\r".toList
      decide
    all_goals trivial
  obtain ⟨_, _, _, hread⟩ := program_read_by_steps returningPlan ({} : AnalyzerSettings).limits
  obtain ⟨hlength, _, hcuts, hrapids⟩ := hread hfeed
  exact ⟨hfeed, hlength, hcuts, hrapids⟩

/-- A line feed in a comment makes a second line, and what stands there is read as a cut that the
plan does not have. -/
theorem line_feed_adds_cut :
    (Plan.empty.push (.comment "note\nG1 X5") : Plan Float).length = 1 ∧
      (Text.lines (program (Plan.empty.push (.comment "note\nG1 X5") : Plan Float)).toList).length =
        2 ∧
      (Plan.empty.push (.comment "note\nG1 X5") : Plan Float).cutCount = 0 ∧
      (analyzeText ({} : AnalyzerSettings).limits
        (program (Plan.empty.push (.comment "note\nG1 X5") : Plan Float)).toList).summary.cutMoves =
        1 := by
  decide +kernel

end BasRelief
