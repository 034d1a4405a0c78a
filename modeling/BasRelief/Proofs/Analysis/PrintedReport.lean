import BasRelief.CommandLine.Run
import BasRelief.Proofs.Analysis.ModerateWords
import BasRelief.Proofs.Analysis.ProgramSize

/-!
# Reports that are printed

The numbers of a report are finite just where the program stays in range, as any program of moderate
words does. The document that is printed has null for each number that is not finite and for
nothing else, and it is decoded just when there is no such number.
-/

namespace BasRelief
open Document CommandLine

/-! ### Printed lines -/

namespace Document.Json

theorem Scans.blanks {cs bs : List Char} {found : List Token} (h : Scans cs found)
    (hblank : ∀ c ∈ bs, isBlank c = true) : Scans (cs ++ bs) found := by
  intro ts
  obtain ⟨s, hscan, hs⟩ := h ts
  rw [List.foldlM_append, hscan]
  exact scan_blanks_of_flushed hblank hs

/-- A printed value is read with the line end after it. -/
theorem read?_pretty_line (v : Value) : read? (pretty v ++ "\n").toList = some (reread v) := by
  have htext : (pretty v ++ "\n").toList = write .indented 0 v ++ ['\n'] := by
    rw [String.toList_append, pretty, String.toList_ofList]
    rfl
  obtain ⟨found, hscans, hyields⟩ := reads_write Layout.indented_isBlank 0 v
  rw [htext]
  exact read?_of_reads ⟨found, hscans.blanks (List.forall_mem_singleton.2 rfl), hyields⟩

end Document.Json

/-! ### Reports -/

theorem Modal.analyzeText_isFinite_iff (limits : AnalysisLimits Float) (cs : List Char) :
    (analyzeText limits cs).IsFinite ↔
      InRange limits.tolerance (statements (Text.lines cs)) := by
  rw [analyzeText, analyzeLines_eq_statements]
  exact report_isFinite_iff limits _ fun _ ht a => isNumber_of_mem_statements ht a

/-- The numbers of a report are finite just where the program stays in range, and the printed
document has null for those that are not. -/
theorem finite_reports_in_range (settings : AnalyzerSettings) {cs : List Char}
    (hsize : cs.length < wordSize) :
    ((analyzeText settings.limits cs).IsFinite ↔
      Modal.InRange settings.floatTolerance (Modal.statements (Text.lines cs))) ∧
    ((∀ t ∈ (Modal.statements (Text.lines cs) : List (Gcode.Token Float)), t.words.IsModerate) →
      (analyzeText settings.limits cs).IsFinite) ∧
    ∃ v, Json.read? (outcomeReply true (.analyzed (analyzeText settings.limits cs))).output.toList =
        some v ∧
      v.nulls = Json.notFinite (analyzeText settings.limits cs).doubles ∧
      ((∃ r, AnalysisReport.ofValue .json v = .ok r) ↔
        (analyzeText settings.limits cs).IsFinite) := by
  have hrange := Modal.analyzeText_isFinite_iff settings.limits cs
  have hfits := analyzeText_fits settings.limits hsize
  refine ⟨hrange, fun hmoderate => ?_, _, Json.read?_pretty_line _, ?_, ?_⟩
  · exact hrange.2 (Modal.inRange_of_moderate _ hmoderate)
  · exact AnalysisReport.nulls_reread hfits
  · exact AnalysisReport.decodes_iff hfits

/-- A square, with one value that is no number. -/
def squareProgram : List Char :=
  "G0 X0 Y0 Z5\nG1 Z-1 F300\nG1 X10.5 F1200\nG1 Y10.5 ; up\nG1 X0\nG1 Y..\nG1 Y0".toList

theorem squareProgram_decoded :
    squareProgram.length < wordSize ∧
    (∀ t ∈ (Modal.statements (Text.lines squareProgram) : List (Gcode.Token Float)),
      t.words.IsModerate) ∧
    (analyzeText ({} : AnalyzerSettings).limits squareProgram).IsFinite ∧
    ∃ v r, Json.read? (outcomeReply true
        (.analyzed (analyzeText ({} : AnalyzerSettings).limits squareProgram))).output.toList =
        some v ∧
      v.nulls = 0 ∧ AnalysisReport.ofValue .json v = .ok r := by
  have hsize : squareProgram.length < wordSize := by decide
  have hmoderate : ∀ t ∈ (Modal.statements (Text.lines squareProgram) : List (Gcode.Token Float)),
      t.words.IsModerate := by decide +kernel
  obtain ⟨-, hfinite, v, hread, hnulls, hdecoded⟩ := finite_reports_in_range {} hsize
  obtain ⟨r, hr⟩ := hdecoded.2 (hfinite hmoderate)
  have hzero := (Json.notFinite_eq_zero_iff _).2 (hfinite hmoderate)
  exact ⟨hsize, hmoderate, hfinite hmoderate, v, r, hread, hnulls.trans hzero, hr⟩

/-! ### A program out of range -/

/-- A cut to a coordinate with two hundred zeros, whose square is out of range. -/
def farProgram : List Char := "G1 X1".toList ++ List.replicate 200 '0'

theorem farProgram_not_decoded :
    ({} : Config).fault? = none ∧
    ¬(analyzeText ({} : Config).analyzer.limits farProgram).IsFinite ∧
    ∃ v, Json.read? (outcomeReply true
        (.analyzed (analyzeText ({} : Config).analyzer.limits farProgram))).output.toList =
        some v ∧
      v.nulls = 1 ∧ ¬∃ r, AnalysisReport.ofValue .json v = .ok r := by
  have hfits := analyzeText_fits ({} : Config).analyzer.limits
    (show farProgram.length < wordSize by decide +kernel)
  have hnot : ¬(analyzeText ({} : Config).analyzer.limits farProgram).IsFinite := by
    decide +kernel
  have hone :
      Json.notFinite (analyzeText ({} : Config).analyzer.limits farProgram).doubles = 1 := by
    decide +kernel
  refine ⟨by decide +kernel, hnot, _, Json.read?_pretty_line _, ?_, ?_⟩
  · exact (AnalysisReport.nulls_reread hfits).trans hone
  · exact fun h => hnot ((AnalysisReport.decodes_iff hfits).1 h)

end BasRelief
