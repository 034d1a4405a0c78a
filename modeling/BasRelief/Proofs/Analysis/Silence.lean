import BasRelief.Proofs.Analysis.Statements
import BasRelief.Proofs.Gcode.LineWords
import Mathlib.Logic.Relation

/-!
# What a program says without a word

Comments and blank lines say nothing: a line has the token of what stands in front of its comment,
and no token if that is blank. Programs that differ in their comments and their blank lines alone
say the same, so their reports differ in the count of the lines alone.
-/

namespace BasRelief

/-! ### Blanks and comments -/

theorem Text.trim_eq_nil_iff (cs : List Char) : trim cs = [] ↔ ∀ c ∈ cs, isBlank c = true := by
  have hend (ds : List Char) : trimEnd ds = [] ↔ ∀ c ∈ ds, isBlank c = true := by
    rw [trimEnd, List.reverse_eq_nil_iff, List.dropWhile_eq_nil_iff]
    simp only [List.mem_reverse]
  rw [trim, hend]
  constructor
  · intro h
    by_cases hrest : cs.dropWhile isBlank = []
    · exact List.dropWhile_eq_nil_iff.mp hrest
    · -- what is left after the blanks in front starts with no blank
      have hhead := List.head_dropWhile_not isBlank hrest
      exact absurd (h _ (List.head_mem hrest)) (by rw [hhead]; exact Bool.false_ne_true)
  · intro h c hc
    exact h c ((List.dropWhile_sublist isBlank).mem hc)

namespace Gcode

theorem stripComment_idem {l : List Char} (h : '\n' ∉ l) :
    stripComment (stripComment l) = stripComment l := by
  apply stripComment_of_clean
  rw [stripComment_eq_takeWhile h]
  intro c hc
  have hclean := List.mem_takeWhile_imp hc
  simpa using hclean

/-- A comment at the end of a line goes with the comment that the line has. -/
theorem stripComment_append_comment {l text : List Char} {c : Char} (hl : '\n' ∉ l)
    (hc : startsComment c = true) (htext : '\n' ∉ text) :
    stripComment (l ++ c :: text) = stripComment l := by
  have hfeed : '\n' ≠ c := by
    rintro rfl
    exact absurd hc (by decide)
  have hline : '\n' ∉ l ++ c :: text := by
    simp only [List.mem_append, List.mem_cons, not_or]
    exact ⟨hl, hfeed, htext⟩
  rw [stripComment_eq_takeWhile hline, stripComment_eq_takeWhile hl]
  exact takeWhile_append_stop (by rw [hc]; rfl) l text

/-! ### Lines that say nothing -/

/-- A line is silent if nothing but blanks stands in front of its comment. -/
def IsSilent (l : List Char) : Prop := ∀ c ∈ stripComment l, Text.isBlank c = true

instance (l : List Char) : Decidable (IsSilent l) :=
  decidable_of_iff ((stripComment l).all Text.isBlank = true) List.all_eq_true

theorem isSilent_of_blank {l : List Char} (h : ∀ c ∈ l, Text.isBlank c = true) : IsSilent l := by
  intro c hc
  obtain hc | hc := List.mem_append.mp hc
  · exact h c ((List.takeWhile_sublist _).mem hc)
  · exact h c ((List.dropWhile_sublist _).mem ((List.dropWhile_sublist _).mem hc))

namespace Token
variable {α : Type} [Scalar α]

theorem read?_eq_none_iff (number : Nat) (l : List Char) :
    (read? number l : Option (Token α)) = none ↔ IsSilent l := by
  rw [IsSilent, ← Text.trim_eq_nil_iff]
  unfold read?
  dsimp only
  split
  · simp [*]
  · simp [*]

theorem read?_of_strip_eq {l m : List Char} (h : stripComment l = stripComment m) (number : Nat) :
    (read? number l : Option (Token α)) = read? number m := by
  rw [read?, read?, h]

end Token

/-- The program without its comments, and without the lines that are blank then. -/
def bare (ls : List (List Char)) : List (List Char) :=
  (ls.map stripComment).filter fun l => !l.all Text.isBlank

/-- One change to the comments and the blank lines of a program. -/
inductive SilentEdit : List (List Char) → List (List Char) → Prop where
  | bare {ls : List (List Char)} (h : ∀ l ∈ ls, '\n' ∉ l) : SilentEdit ls (bare ls)
  | insert (p q : List (List Char)) {l : List Char} (h : IsSilent l) :
      SilentEdit (p ++ q) (p ++ l :: q)
  | comment (p q : List (List Char)) {l text : List Char} {c : Char} (hl : '\n' ∉ l)
      (hc : startsComment c = true) (htext : '\n' ∉ text) :
      SilentEdit (p ++ l :: q) (p ++ (l ++ c :: text) :: q)

end Gcode

namespace Modal
open Gcode
variable {α : Type} [Scalar α]

theorem statements_bare {ls : List (List Char)} (h : ∀ l ∈ ls, '\n' ∉ l) :
    (statements (bare ls) : List (Token α)) = statements ls := by
  rw [statements, bare, List.filterMap_filter, List.filterMap_map]
  apply List.filterMap_congr
  intro l hl
  have hread := Token.read?_of_strip_eq (α := α) (stripComment_idem (h l hl)) 0
  dsimp only [Function.comp]
  split
  · exact hread
  case isFalse hblank =>
    have hsilent : IsSilent l := by simpa [IsSilent] using hblank
    exact ((Token.read?_eq_none_iff 0 l).mpr hsilent).symm

theorem statements_of_edit {ls ms : List (List Char)} (h : SilentEdit ls ms) :
    (statements ms : List (Token α)) = statements ls := by
  cases h with
  | bare h => exact statements_bare h
  | insert p q h =>
    have hsilent := (Token.read?_eq_none_iff (α := α) 0 _).mpr h
    rw [statements_append, statements_append, statements_cons, hsilent]
    rfl
  | @comment p q l text c hl hc htext =>
    have hread := Token.read?_of_strip_eq (α := α) (stripComment_append_comment hl hc htext) 0
    rw [statements_append, statements_append, statements_cons, statements_cons, hread]

theorem statements_of_edits {ls ms : List (List Char)} (h : Relation.EqvGen SilentEdit ls ms) :
    (statements ms : List (Token α)) = statements ls := by
  induction h with
  | rel ls ms h => exact statements_of_edit h
  | refl ls => rfl
  | symm ls ms _ ih => exact ih.symm
  | trans ls ms ns _ _ first second => exact second.trans first

end Modal

/-! ### The report -/

/-- The report with another count of lines. -/
def AnalysisReport.withLinesRead {α : Type} (n : Nat) (r : AnalysisReport α) : AnalysisReport α :=
  { r with summary := { r.summary with linesRead := n } }

/-- However comments and blank lines come and go, the report changes in the count of lines alone. -/
theorem silent_edits_keep_report {α : Type} [Scalar α] (limits : AnalysisLimits α)
    {ls ms : List (List Char)} (h : Relation.EqvGen Gcode.SilentEdit ls ms) :
    analyzeLines limits ms = (analyzeLines limits ls).withLinesRead ms.length := by
  rw [analyzeLines_eq_statements, analyzeLines_eq_statements, Modal.statements_of_edits h]
  rfl

/-! ### Two programs with other remarks -/

namespace Gcode

def outline : List (List Char) := ["G1 X3 Y4 F100".toList, "G0 X1".toList]

def remarkedOutline : List (List Char) :=
  ["G1 X3 Y4 F100(slow)".toList, "; back".toList, "G0 X1".toList]

def annotatedOutline : List (List Char) :=
  ["G1 X3 Y4 F100; out (G0 X9)".toList, "(X99 Y99) ; G0 X1".toList, "  ".toList, "G0 X1".toList]

theorem remarked_edits_annotated :
    Relation.EqvGen SilentEdit remarkedOutline annotatedOutline := by
  have hbare : SilentEdit remarkedOutline outline := by
    have houtline : bare remarkedOutline = outline := by decide
    exact houtline ▸ SilentEdit.bare (by decide)
  have hremark := @SilentEdit.comment [] ["G0 X1".toList] "G1 X3 Y4 F100".toList
    " out (G0 X9)".toList ';' (by decide) (by decide) (by decide)
  have hblank := SilentEdit.insert ["G1 X3 Y4 F100; out (G0 X9)".toList] ["G0 X1".toList]
    (isSilent_of_blank (l := "  ".toList) (List.all_eq_true.mp (by decide)))
  have hmove := SilentEdit.insert ["G1 X3 Y4 F100; out (G0 X9)".toList] ["  ".toList, "G0 X1".toList]
    (l := "(X99 Y99) ; G0 X1".toList) (by decide)
  exact .trans _ _ _ (.trans _ _ _ (.trans _ _ _ (.rel _ _ hbare) (.rel _ _ hremark))
    (.rel _ _ hblank)) (.rel _ _ hmove)

end Gcode

theorem annotated_outline_report :
    Relation.EqvGen Gcode.SilentEdit Gcode.remarkedOutline Gcode.annotatedOutline ∧
    analyzeLines ({} : AnalyzerSettings).limits Gcode.annotatedOutline =
      (analyzeLines ({} : AnalyzerSettings).limits Gcode.remarkedOutline).withLinesRead 4 :=
  ⟨Gcode.remarked_edits_annotated, silent_edits_keep_report _ Gcode.remarked_edits_annotated⟩

end BasRelief
