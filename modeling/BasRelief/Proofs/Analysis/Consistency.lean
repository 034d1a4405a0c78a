import BasRelief.Proofs.Analysis.Generated
import BasRelief.Proofs.Analysis.Statements
import BasRelief.Proofs.Analysis.WordCounts

/-!
# Reports that agree with themselves

The fields of a report are filled in different places: moves by their kind, words by their text,
feeds and heights by their values. They agree for every program, and a word is counted once for
each line whose first G word has its number.
-/

namespace BasRelief

/-! ### The number of a line -/

namespace Gcode

/-- The digits of a G word that stands at the start of the text. -/
def gWordAt? : List Char → Option (List Char)
  | [] => none
  | c :: cs =>
    let ds := cs.takeWhile Text.isScriptDigit
    if c.toUpper = 'G' ∧ ds ≠ [] then some ds else none

/-- The number of plain digits, however great; digits of another script stand for no number. -/
def plainNumber? (ds : List Char) : Option Nat :=
  if ds.all Decimal.isDigit then some (Decimal.value ds) else none

/-- The number of the first G word of a line, which may be too great for the program. -/
def firstGNumber? (l : List Char) : Option Nat :=
  ((Text.trim (stripComment l)).tails.findSome? gWordAt?).bind plainNumber?

theorem gDigits?_eq_findSome? (cs : List Char) : gDigits? cs = cs.tails.findSome? gWordAt? := by
  induction cs with
  | nil => rfl
  | cons c cs ih =>
    rw [gDigits?, List.tails_cons, List.findSome?_cons, gWordAt?, ih]
    split <;> rfl

theorem gNumber?_eq_filter (ds : List Char) :
    gNumber? ds = (plainNumber? ds).filter (· < 2 ^ 32) := by
  rw [gNumber?, plainNumber?]
  by_cases hplain : ds.all Decimal.isDigit = true
  · rw [if_pos hplain, Option.filter_some]
    simp [hplain]
  · rw [if_neg hplain, if_neg fun h => hplain h.1]
    rfl

theorem Token.gNumber_read? {α : Type} [Scalar α] (number : Nat) (l : List Char) :
    (Token.read? number l : Option (Token α)).bind Token.gNumber =
      (firstGNumber? l).filter (· < 2 ^ 32) := by
  rw [firstGNumber?, ← gDigits?_eq_findSome?]
  have hnumber : (gDigits? (Text.trim (stripComment l))).bind gNumber? =
      ((gDigits? (Text.trim (stripComment l))).bind plainNumber?).filter (· < 2 ^ 32) := by
    cases gDigits? (Text.trim (stripComment l)) with
    | none => rfl
    | some ds => exact gNumber?_eq_filter ds
  rw [← hnumber, Token.read?]
  by_cases hempty : Text.trim (stripComment l) = []
  · rw [hempty]
    rfl
  · simp only [if_neg hempty]
    rfl

example : firstGNumber? "N5 g01 X2 (G0)".toList = some 1 := by decide

end Gcode

/-! ### Counts of words -/

namespace Modal
open Gcode
variable {α : Type} [Scalar α]

theorem gNumbers_statements (ls : List (List Char)) :
    (statements ls : List (Token α)).filterMap Token.gNumber =
      ls.filterMap fun l => (firstGNumber? l).filter (· < 2 ^ 32) := by
  rw [statements, List.filterMap_filterMap]
  exact List.filterMap_congr fun l _ => Token.gNumber_read? 0 l

omit [Scalar α] in
theorem count_gWordName (ts : List (Token α)) (n : Nat) :
    (gWords ts).count (Tally.gWordName n) = (ts.filterMap Token.gNumber).count n := by
  rw [(isCountOf_gWords ts).count_eq, List.count_map_of_injective _ _ Tally.gWordName_injective]

omit [Scalar α] in
theorem count_gWords (ts : List (Token α)) (n : Nat) :
    (gWords ts).count (Tally.gWordName n) = ts.countP fun t => t.gNumber = some n := by
  rw [count_gWordName, List.count_filterMap]
  exact List.countP_congr fun t _ => by simp

theorem count_gWords_statements (ls : List (List Char)) {n : Nat} (h : n < 2 ^ 32) :
    (gWords (statements ls : List (Token α))).count (Tally.gWordName n) =
      ls.countP fun l => firstGNumber? l = some n := by
  rw [count_gWordName, gNumbers_statements, List.count_filterMap]
  apply List.countP_congr
  intro l _
  rw [beq_iff_eq, Option.filter_eq_some_iff, decide_eq_true_iff, decide_eq_true_iff]
  exact and_iff_left h

theorem sum_gWords_statements (ls : List (List Char)) :
    ((gWords (statements ls : List (Token α))).map Prod.snd).sum =
      ls.countP fun l => (firstGNumber? l).any (· < 2 ^ 32) := by
  rw [(isCountOf_gWords _).total, List.length_map, gNumbers_statements,
    List.length_filterMap_eq_countP]
  apply List.countP_congr
  intro l _
  simp

omit [Scalar α] in
theorem countP_moves_le (ts : List (Token α)) :
    (ts.countP fun t => t.gNumber = some 0) + (ts.countP fun t => t.gNumber = some 1) ≤
      ts.length := by
  rw [List.length_eq_countP_add_countP (fun t : Token α => t.gNumber = some 0)]
  apply Nat.add_le_add_left
  apply List.countP_mono_left
  intro t _ hcut
  have hnumber : t.gNumber = some 1 := of_decide_eq_true hcut
  simp [hnumber]

omit [Scalar α] in
theorem length_moments (ts : List (Token α)) : (moments ts).length = ts.length := by
  rw [moments, List.length_zipWith, List.length_inits]
  omega

theorem length_feeds_le (ts : List (Token α)) : (feeds ts).length ≤ ts.length :=
  calc (feeds ts).length
    _ ≤ ((moments ts).map Moment.feed).length := List.length_filter_le _ _
    _ = ts.length := by rw [List.length_map, length_moments]

theorem length_points_le (ts : List (Token α)) : (points ts).length ≤ ts.length := by
  rw [length_points]
  exact List.countP_le_length

end Modal

/-! ### Reports -/

/-- What the fields of the report of a program say of each other and of the G words in it. -/
structure AnalysisReport.Consistent {α : Type} [Scalar α] (limits : AnalysisLimits α)
    (ls : List (List Char)) (r : AnalysisReport α) : Prop where
  moves : r.summary.rapidMoves + r.summary.cutMoves ≤ r.summary.processedLines
  lines : r.summary.processedLines ≤ r.summary.linesRead
  rapids : r.summary.gWordCounts.count "G0" = r.summary.rapidMoves
  cuts : r.summary.gWordCounts.count "G1" = r.summary.cutMoves
  ordered : r.summary.gWordCounts.Ordered
  positive : ∀ e ∈ r.summary.gWordCounts, 0 < e.2
  gWords : ∀ n < 2 ^ 32, r.summary.gWordCounts.count (Tally.gWordName n) =
    ls.countP fun l => Gcode.firstGNumber? l = some n
  total : (r.summary.gWordCounts.map Prod.snd).sum =
    ls.countP fun l => (Gcode.firstGNumber? l).any (· < 2 ^ 32)
  feeds : r.feeds.count = r.chart.feeds.length
  feedLines : r.chart.feeds.length ≤ r.summary.processedLines
  feedSigns : ∀ v ∈ r.chart.feeds, Scalar.less Scalar.zero v = true
  heights : r.heights.count = r.chart.zValues.length
  trajectory : r.chart.trajectory.length ≤ min limits.trajectory r.summary.processedLines

/-- The report of any program agrees with itself. -/
theorem analyzeLines_consistent {α : Type} [Scalar α] (limits : AnalysisLimits α)
    (ls : List (List Char)) : (analyzeLines limits ls).Consistent limits ls := by
  have hcounts := Modal.isCountOf_gWords (Modal.statements ls : List (Gcode.Token α))
  rw [analyzeLines_eq_statements]
  constructor
  case moves => exact Modal.countP_moves_le _
  case lines => exact List.length_filterMap_le _ ls
  case rapids => exact gWordName_zero ▸ Modal.count_gWords _ 0
  case cuts => exact gWordName_one ▸ Modal.count_gWords _ 1
  case ordered => exact hcounts.ordered
  case positive => exact hcounts.positive
  case gWords => exact fun n hn => Modal.count_gWords_statements ls hn
  case total => exact Modal.sum_gWords_statements ls
  case feeds => exact (Series.count_stats _).trans (Series.count_ofList _)
  case feedLines => exact Modal.length_feeds_le _
  case feedSigns => exact fun v hv => (List.mem_filter.mp hv).2
  case heights => exact (Series.count_stats _).trans (Series.count_ofList _)
  case trajectory =>
    have hpoints := Modal.length_points_le (Modal.statements ls : List (Gcode.Token α))
    simp only [Modal.report, List.length_take]
    omega

end BasRelief
