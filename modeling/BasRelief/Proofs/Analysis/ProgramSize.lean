import BasRelief.Proofs.Analysis.Consistency
import BasRelief.Proofs.Analysis.ReportDocument
import BasRelief.Proofs.Text.LineCut

/-!
# The size of a program bounds its counts

Every line takes a character of its own and every warning a letter of its line. So none of the
counts in a report is greater than the number of characters of the program.
-/

namespace BasRelief

/-! ### Lines -/

namespace Text

/-- The symbols in pieces, without the feeds between them. -/
def symbols {β : Type} (ps : List (List β × Bool)) : Nat := (ps.map fun p => p.1.length).sum

theorem length_pieces_le {β : Type} [DecidableEq β] (feed : β) (cs : List β) :
    (pieces feed cs).length ≤ cs.length ∧ symbols (pieces feed cs) ≤ cs.length := by
  induction cs with
  | nil => exact ⟨le_rfl, le_rfl⟩
  | cons c cs ih =>
    rw [pieces_cons, List.length_cons]
    generalize pieces feed cs = ps at ih ⊢
    obtain ⟨hcount, hsum⟩ := ih
    by_cases hc : c = feed
    · rw [hc, addSymbol_feed]
      simp only [symbols, List.length_cons, List.map_cons, List.sum_cons, List.length_nil] at hsum ⊢
      omega
    · rw [addSymbol_of_ne hc]
      cases ps with
      | nil => simp [prepend, symbols]
      | cons p ps =>
        simp only [prepend, symbols, List.length_cons, List.map_cons, List.sum_cons,
          List.length_append, List.length_nil] at hcount hsum ⊢
        omega

theorem length_withoutReturn_le {β : Type} [DecidableEq β] (ret : β) (p : List β × Bool) :
    (withoutReturn ret p).length ≤ p.1.length := by
  obtain ⟨piece, closed⟩ := p
  rw [withoutReturn]
  split
  · rw [List.length_dropLast]
    exact Nat.sub_le _ _
  · rfl

theorem length_lines_le (cs : List Char) : (lines cs).length ≤ cs.length := by
  rw [lines, List.length_map]
  exact (length_pieces_le '\n' cs).1

theorem sum_lines_le (cs : List Char) : ((lines cs).map List.length).sum ≤ cs.length := by
  refine le_trans ?_ (length_pieces_le '\n' cs).2
  rw [lines, List.map_map]
  exact List.sum_le_sum fun p _ => length_withoutReturn_le '\r' p

theorem length_trim_le (cs : List Char) : (trim cs).length ≤ cs.length := by
  rw [trim, trimEnd, List.length_reverse]
  refine (List.dropWhile_suffix _).length_le.trans ?_
  rw [List.length_reverse]
  exact (List.dropWhile_suffix _).length_le

end Text

/-! ### Warnings -/

namespace Gcode

theorem length_stripComment_le (cs : List Char) : (stripComment cs).length ≤ cs.length := by
  have hsplit := congrArg List.length (List.takeWhile_append_dropWhile (p := fun c =>
    !startsComment c) (l := cs))
  have hrest := (List.dropWhile_suffix (· != '\n')
    (l := cs.dropWhile fun c => !startsComment c)).length_le
  rw [List.length_append] at hsplit
  rw [stripComment, List.length_append]
  omega

theorem length_occurrences_le (cs : List Char) : (occurrences cs).length ≤ cs.length := by
  induction cs with
  | nil => exact le_rfl
  | cons c cs ih =>
    rw [occurrences]
    split
    · exact Nat.succ_le_succ ih
    · exact ih.trans (Nat.le_succ _)

variable {α : Type} [Scalar α]

theorem length_warnings_le {number : Nat} {line : List Char} {t : Token α}
    (h : Token.read? number line = some t) : t.warnings.length ≤ line.length := by
  simp only [Token.read?] at h
  split at h
  · cases h
  · cases h
    exact (List.length_filterMap_le _ _).trans ((length_occurrences_le _).trans
      ((Text.length_trim_le _).trans (length_stripComment_le line)))

end Gcode

namespace Modal
open Gcode
variable {α : Type} [Scalar α]

theorem length_statements_le (ls : List (List Char)) :
    (statements ls : List (Token α)).length ≤ ls.length := List.length_filterMap_le _ ls

theorem length_warnings_statements_le (ls : List (List Char)) :
    ((statements ls : List (Token α)).flatMap Token.warnings).length ≤
      (ls.map List.length).sum := by
  induction ls with
  | nil => exact le_rfl
  | cons l ls ih =>
    rw [statements_cons, List.flatMap_append, List.length_append, List.map_cons, List.sum_cons]
    cases hread : (Token.read? 0 l : Option (Token α)) with
    | none =>
      simp only [Option.toList_none, List.flatMap_nil, List.length_nil]
      omega
    | some t =>
      have hline := length_warnings_le hread
      simp only [Option.toList_some, List.flatMap_cons, List.flatMap_nil, List.append_nil]
      omega

omit [Scalar α] in
theorem gWord_le_length {ts : List (Token α)} {e : String × Nat} (h : e ∈ gWords ts) :
    e.2 ≤ ts.length :=
  calc e.2
    _ ≤ ((gWords ts).map Prod.snd).sum :=
      List.single_le_sum (fun _ _ => Nat.zero_le _) _ (List.mem_map_of_mem h)
    _ = ((ts.filterMap Token.gNumber).map Tally.gWordName).length := (isCountOf_gWords ts).total
    _ ≤ ts.length := by
      rw [List.length_map]
      exact List.length_filterMap_le _ _

end Modal

/-! ### Reports -/

/-- The counts of a program that fits into memory fit in 64 bits. -/
theorem analyzeText_fits (limits : AnalysisLimits Float) {cs : List Char}
    (h : cs.length < wordSize) : (analyzeText limits cs).Fits := by
  rw [analyzeText, analyzeLines_eq_statements]
  have hlines := Text.length_lines_le cs
  have hsymbols := Text.sum_lines_le cs
  generalize Text.lines cs = ls at hlines hsymbols
  have hwarnings := Modal.length_warnings_statements_le (α := Float) ls
  have htokens := Modal.length_statements_le (α := Float) ls
  generalize (Modal.statements ls : List (Gcode.Token Float)) = ts at hwarnings htokens
  have hfeeds := Modal.length_feeds_le ts
  have hheights := List.length_filterMap_le (fun t : Gcode.Token Float => t.words.z) ts
  have hcount (p : Gcode.Token Float → Bool) : ts.countP p < wordSize :=
    List.countP_le_length.trans_lt (by omega)
  constructor
  case summary =>
    constructor
    case linesRead => exact hlines.trans_lt h
    case processedLines => exact (htokens.trans hlines).trans_lt h
    case rapidMoves => exact hcount _
    case cutMoves => exact hcount _
    case warnings => exact (hwarnings.trans hsymbols).trans_lt h
    case ordered => exact (Modal.isCountOf_gWords ts).ordered
    case gWords =>
      intro e he
      have hword := Modal.gWord_le_length he
      omega
  case feeds =>
    show (Series.ofList (Modal.feeds ts)).stats.count < wordSize
    rw [Series.count_stats, Series.count_ofList]
    omega
  case heights =>
    show (Series.ofList (ts.filterMap fun t => t.words.z)).stats.count < wordSize
    rw [Series.count_stats, Series.count_ofList]
    omega

end BasRelief
