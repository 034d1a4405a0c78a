import BasRelief.Proofs.Analysis.ModalRun
import BasRelief.Proofs.Machine.Segments

/-!
# What a program says

The tokens of the lines, whatever the numbers of the lines. An analysis takes them one after the
other and only counts the lines besides, so the report of a program is the modal reading of what it
says.
-/

namespace BasRelief
open Gcode
variable {α : Type} [Scalar α]

namespace Modal

def statements (ls : List (List Char)) : List (Token α) := ls.filterMap (Token.read? 0)

theorem statements_append (p q : List (List Char)) :
    (statements (p ++ q) : List (Token α)) = statements p ++ statements q :=
  List.filterMap_append

theorem statements_cons (l : List Char) (ls : List (List Char)) :
    (statements (l :: ls) : List (Token α)) = (Token.read? 0 l).toList ++ statements ls := by
  rw [statements, List.filterMap_cons]
  cases (Token.read? 0 l : Option (Token α)) <;> rfl

theorem classified_of_mem_statements {ls : List (List Char)} {t : Token α}
    (h : t ∈ statements ls) : Classified t := by
  obtain ⟨l, _, hread⟩ := List.mem_filterMap.mp h
  exact classified_of_read hread

end Modal

namespace Analysis
open Modal

/-! ### Lines that are only counted -/

def counting (n : Nat) (a : Analysis α) : Analysis α := { a with linesRead := n }

/-- A token that is taken without a line being counted. -/
def statement (limits : AnalysisLimits α) (a : Analysis α) (t : Token α) : Analysis α :=
  a.token limits a.linesRead t

omit [Scalar α] in
theorem counting_counting (m n : Nat) (a : Analysis α) :
    (a.counting m).counting n = a.counting n := rfl

theorem foldl_statement_counting (limits : AnalysisLimits α) (n : Nat) (ts : List (Token α))
    (a : Analysis α) :
    ts.foldl (statement limits) (a.counting n) = (ts.foldl (statement limits) a).counting n := by
  induction ts generalizing a with
  | nil => rfl
  | cons t ts ih => exact ih (a.statement limits t)

theorem token_relabel (limits : AnalysisLimits α) (a : Analysis α) (number : Nat) (t : Token α) :
    a.token limits number (t.relabel number) = (a.statement limits t).counting number := by
  have hwarnings : (t.relabel number).warnings.length = t.warnings.length := List.length_map _
  rw [token, hwarnings]
  rfl

theorem line_eq (limits : AnalysisLimits α) (a : Analysis α) (l : List Char) :
    a.line limits l =
      ((Token.read? 0 l).toList.foldl (statement limits) a).counting (a.linesRead + 1) := by
  rw [line, Token.read?_relabel (a.linesRead + 1) 0]
  cases (Token.read? 0 l : Option (Token α)) with
  | none => rfl
  | some t => exact token_relabel limits a (a.linesRead + 1) t

theorem lines_cons (limits : AnalysisLimits α) (a : Analysis α) (l : List Char)
    (ls : List (List Char)) : a.lines limits (l :: ls) = (a.line limits l).lines limits ls := rfl

theorem lines_eq (limits : AnalysisLimits α) (a : Analysis α) (ls : List (List Char)) :
    a.lines limits ls =
      ((statements ls).foldl (statement limits) a).counting (a.linesRead + ls.length) := by
  induction ls generalizing a with
  | nil => rfl
  | cons l ls ih =>
    have hcount : a.linesRead + 1 + ls.length = a.linesRead + (l :: ls).length := by
      rw [List.length_cons]
      omega
    rw [lines_cons, ih, linesRead_line, line_eq, foldl_statement_counting, counting_counting,
      statements_cons, List.foldl_append, hcount]

/-! ### The report -/

theorem foldl_statement_start (limits : AnalysisLimits α) {ts : List (Token α)}
    (h : ∀ t ∈ ts, Classified t) :
    ts.foldl (statement limits) start = analysis limits 0 ts := by
  induction ts using List.reverseRecOn with
  | nil => exact start_eq limits
  | append_singleton ts t ih =>
    have hbefore := ih fun u hu => h u (List.mem_append_left _ hu)
    have ht := h t (List.mem_append_right _ (List.mem_singleton_self t))
    rw [List.foldl_append, hbefore]
    exact token_analysis limits 0 0 ts ht

end Analysis

theorem analyzeLines_eq_statements (limits : AnalysisLimits α) (ls : List (List Char)) :
    analyzeLines limits ls = Modal.report limits ls.length (Modal.statements ls) := by
  have hclassified : ∀ t ∈ (Modal.statements ls : List (Token α)), Modal.Classified t :=
    fun _ ht => Modal.classified_of_mem_statements ht
  have hsaid := Analysis.foldl_statement_start limits hclassified
  have hcount : (Analysis.start : Analysis α).linesRead + ls.length = ls.length := Nat.zero_add _
  rw [analyzeLines, Analysis.lines_eq, hsaid, hcount]
  rfl

end BasRelief
