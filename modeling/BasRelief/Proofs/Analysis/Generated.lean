import BasRelief.Proofs.Analysis.ModalRun
import BasRelief.Proofs.Gcode.PlanText

/-!
# The analysis of a generated program

The report of the text of a plan counts what the plan holds: its moves by kind, its steps as lines,
and its G words. Moves and warnings are counted for any plan whose steps are lines; the words and
the processed lines need what stands around the cuts.
-/

namespace BasRelief

/-! ### Words of a plan -/

/-- How often each word occurs in a plan with some rapids and some cuts; a word that does not
occur has no entry. -/
def WordCounts.ofMoves (rapids cuts : Nat) : WordCounts :=
  [("G0", rapids), ("G1", cuts), ("G17", 1), ("G21", 1), ("G90", 1)].filter fun e => e.2 ≠ 0

/-- What the report of a plan counts. -/
structure AnalysisReport.Counts {α : Type} (r : AnalysisReport α) (p : Plan α) : Prop where
  cutMoves : r.summary.cutMoves = p.cutCount
  rapidMoves : r.summary.rapidMoves = p.rapidCount
  warnings : r.summary.warnings = 0
  linesRead : r.summary.linesRead = p.length
  processedLines : r.summary.processedLines = p.cutCount + p.rapidCount + 6
  gWordCounts : r.summary.gWordCounts = WordCounts.ofMoves p.rapidCount p.cutCount

theorem WordCounts.add_rapid (rapids cuts : Nat) :
    (ofMoves rapids cuts).add "G0" = ofMoves (rapids + 1) cuts := by
  have hcut : ("G0" : String) < "G1" := by decide
  have hplane : ("G0" : String) < "G17" := by decide
  cases rapids <;> cases cuts <;> simp [ofMoves, add, hcut, hplane]

theorem WordCounts.add_cut (rapids cuts : Nat) :
    (ofMoves rapids cuts).add "G1" = ofMoves rapids (cuts + 1) := by
  have hrapid : ¬("G1" : String) < "G0" := by decide
  have hplane : ("G1" : String) < "G17" := by decide
  cases rapids <;> cases cuts <;> simp [ofMoves, add, hrapid, hplane]

theorem gWordName_of_digits {n : Nat} {ds : List Char} (h : Decimal.digits n = ds) :
    Tally.gWordName n = "G" ++ String.ofList ds := by
  rw [Tally.gWordName, Decimal.natText, h]

theorem gWordName_zero : Tally.gWordName 0 = "G0" := by
  have hdigits : Decimal.digits 0 = ['0'] := by
    rw [Decimal.digits, if_pos (by decide)]
    decide
  rw [gWordName_of_digits hdigits]
  decide

theorem gWordName_one : Tally.gWordName 1 = "G1" := by
  have hdigits : Decimal.digits 1 = ['1'] := by
    rw [Decimal.digits, if_pos (by decide)]
    decide
  rw [gWordName_of_digits hdigits]
  decide

theorem foldl_add_setup :
    [21, 90, 17].foldl (fun (counts : WordCounts) n => counts.add (Tally.gWordName n)) [] =
      WordCounts.ofMoves 0 0 := by
  have hunits : Decimal.digits 21 = ['2', '1'] := by
    rw [Decimal.digits, if_neg (by decide), Decimal.digits, if_pos (by decide)]
    decide
  have habsolute : Decimal.digits 90 = ['9', '0'] := by
    rw [Decimal.digits, if_neg (by decide), Decimal.digits, if_pos (by decide)]
    decide
  have hplane : Decimal.digits 17 = ['1', '7'] := by
    rw [Decimal.digits, if_neg (by decide), Decimal.digits, if_pos (by decide)]
    decide
  simp only [List.foldl_cons, List.foldl_nil, gWordName_of_digits hunits,
    gWordName_of_digits habsolute, gWordName_of_digits hplane]
  decide

theorem WordCounts.foldl_add {α : Type} (ms : List (Motion α)) (rapids cuts : Nat) :
    (ms.map Motion.gNumber).foldl (fun counts n => counts.add (Tally.gWordName n))
        (ofMoves rapids cuts) =
      ofMoves (rapids + ms.countP Motion.isRapid) (cuts + ms.countP Motion.isCut) := by
  induction ms generalizing rapids cuts with
  | nil => rfl
  | cons m ms ih =>
    rw [List.map_cons, List.foldl_cons]
    cases m with
    | rapid target feed =>
      have hword : Tally.gWordName (Motion.rapid target feed).gNumber = "G0" := gWordName_zero
      rw [hword, add_rapid, ih, List.countP_cons_of_pos rfl,
        List.countP_cons_of_neg Bool.false_ne_true]
      congr 1
      omega
    | cut target feed =>
      have hword : Tally.gWordName (Motion.cut target feed).gNumber = "G1" := gWordName_one
      rw [hword, add_cut, ih, List.countP_cons_of_neg Bool.false_ne_true,
        List.countP_cons_of_pos rfl]
      congr 1
      omega

namespace Gcode
variable {α : Type} [Scalar α]

/-! ### Any plan -/

theorem countP_cut_stepTokens (p : Plan α) :
    (p.steps.filterMap stepToken?).countP (fun t => t.gNumber = some 1) = p.cutCount := by
  rw [List.countP_eq_length_filter, filter_cut_stepTokens, List.length_map,
    ← List.countP_eq_length_filter]
  rfl

theorem countP_rapid_stepTokens (p : Plan α) :
    (p.steps.filterMap stepToken?).countP (fun t => t.gNumber = some 0) = p.rapidCount := by
  rw [List.countP_eq_length_filter, filter_rapid_stepTokens, List.length_map,
    ← List.countP_eq_length_filter]
  rfl

theorem warnings_stepTokens (steps : List (PlanStep α)) :
    (steps.filterMap stepToken?).flatMap Token.warnings = [] := by
  induction steps with
  | nil => rfl
  | cons s steps ih =>
    cases s with
    | comment text => exact ih
    | code c => exact ih
    | motion m => exact ih

end Gcode

theorem Plan.length_motions {α : Type} (p : Plan α) :
    p.motions.length = p.cutCount + p.rapidCount := by
  rw [List.length_eq_countP_add_countP Motion.isCut, Plan.cutCount, Plan.rapidCount]
  congr 2
  funext m
  cases m <;> rfl

namespace Generator
open Gcode
variable {α : Type} [Scalar α]

/-! ### The plans that are made -/

/-- The tokens of a made plan: six of machine codes, and one for each move. -/
theorem Makes.tokens {g : Generator α} {time : String} {plan : Plan α} (h : g.Makes time plan) :
    ∃ cuts : List (Motion α), plan.motions = opening g.params ++ cuts ++ closing g.params ∧
      plan.steps.filterMap stepToken? =
        [.unitsMillimeters, .absolutePositioning, .planeXY, .spindleOn].map codeToken ++
          (opening g.params ++ cuts).map motionToken ++ [codeToken .spindleOff] ++
          (closing g.params).map motionToken ++ [codeToken .programEnd] := by
  obtain ⟨cuts, hcuts⟩ := h.bracket
  have htokens := PlanStep.filterMap_filter_comment (f := stepToken?) (fun _ => rfl) plan.steps
  have hmap : (cuts.map PlanStep.motion).filterMap stepToken? = cuts.map motionToken := by
    rw [List.filterMap_map]
    exact List.filterMap_eq_map_iff_forall_eq_some.mpr fun _ _ => rfl
  rw [hcuts, Generator.bracket, List.filterMap_append, List.filterMap_append, hmap] at htokens
  refine ⟨cuts, motions_of_filter hcuts, ?_⟩
  rw [← htokens]
  simp only [setup, shutdown, opening, closing, List.filterMap_cons, List.filterMap_nil,
    stepToken?, List.map_cons, List.map_nil, List.append_assoc, List.cons_append,
    List.nil_append]

theorem Makes.length_tokens {g : Generator α} {time : String} {plan : Plan α}
    (h : g.Makes time plan) :
    (plan.steps.filterMap stepToken?).length = plan.cutCount + plan.rapidCount + 6 := by
  obtain ⟨cuts, hmotions, htokens⟩ := h.tokens
  have hmoves := plan.length_motions
  rw [hmotions] at hmoves
  rw [htokens, ← hmoves]
  simp only [List.length_append, List.length_map, List.length_cons, List.length_nil]
  omega

theorem Makes.gNumbers {g : Generator α} {time : String} {plan : Plan α}
    (h : g.Makes time plan) :
    (plan.steps.filterMap stepToken?).filterMap Token.gNumber =
      [21, 90, 17] ++ plan.motions.map Motion.gNumber := by
  obtain ⟨cuts, hmotions, htokens⟩ := h.tokens
  have hmap (ms : List (Motion α)) :
      (ms.map motionToken).filterMap Token.gNumber = ms.map Motion.gNumber := by
    rw [List.filterMap_map]
    exact List.filterMap_eq_map_iff_forall_eq_some.mpr fun _ _ => rfl
  rw [htokens, hmotions]
  simp only [List.filterMap_append, hmap, List.map_append, List.append_assoc]
  rfl

theorem Makes.gWords {g : Generator α} {time : String} {plan : Plan α} (h : g.Makes time plan) :
    Modal.gWords (plan.steps.filterMap stepToken?) =
      WordCounts.ofMoves plan.rapidCount plan.cutCount := by
  rw [Modal.gWords, h.gNumbers, List.foldl_append, foldl_add_setup, WordCounts.foldl_add,
    Nat.zero_add, Nat.zero_add]
  rfl

theorem Makes.report_counts [PrintsValues α] {g : Generator α} {time : String} {plan : Plan α}
    (h : g.Makes time plan) (htime : Text.IsLine time.toList) (limits : AnalysisLimits α) :
    (analyzeText limits (program plan).toList).Counts plan := by
  have hlines := h.isOneLine htime
  have htokens := tokens_program hlines
  have hlength : (Text.lines (program plan).toList).length = plan.length := by
    rw [lines_program hlines, List.length_map, length_lines]
  rw [analyzeText, analyzeLines, Modal.lines_start, Modal.report_analysis, htokens, hlength]
  exact
    { cutMoves := countP_cut_stepTokens plan
      rapidMoves := countP_rapid_stepTokens plan
      warnings := congrArg List.length (warnings_stepTokens plan.steps)
      linesRead := rfl
      processedLines := h.length_tokens
      gWordCounts := h.gWords }

end Generator
end BasRelief
