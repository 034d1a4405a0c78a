import BasRelief.Analysis.File
import BasRelief.Proofs.Text.LineCut

/-!
# Files of text

A file with the octets of a text is read to its end, and its report is that of the text. Any other
file ends in an error with the count of the lines in front of the first one that is no text.
-/

namespace BasRelief

namespace ProgramFile

theorem textLines_encode (ls : List (List Char)) : textLines (ls.map Text.encode) = (ls, false) := by
  induction ls with
  | nil => rfl
  | cons l ls ih =>
    have hline := Text.decode?_encode l
    rw [List.map_cons, textLines, hline]
    dsimp only
    rw [ih]

theorem analyze_encode (limits : AnalysisLimits Float) (path : String) (cs : List Char) :
    ProgramFile.analyze limits { path, octets := Text.encode cs } = .ok (analyzeText limits cs) := by
  have hread : textLines (Text.octetLines (Text.encode cs)) = (Text.lines cs, false) := by
    rw [Text.octetLines_encode, textLines_encode]
  have hfault : fault? { path, octets := Text.encode cs } = none := by
    rw [fault?, hread]
    rfl
  have hlines : lines { path, octets := Text.encode cs } = Text.lines cs := by
    rw [lines, hread]
    rfl
  rw [analyze, hfault, hlines]
  rfl

theorem textLines_broken (ls : List (List Char)) {line : List UInt8} (h : Text.decode? line = none)
    (rest : List (List UInt8)) :
    textLines (ls.map Text.encode ++ line :: rest) = (ls, true) := by
  induction ls with
  | nil => rw [List.map_nil, List.nil_append, textLines, h]
  | cons l ls ih =>
    have hline := Text.decode?_encode l
    rw [List.map_cons, List.cons_append, textLines, hline]
    dsimp only
    rw [ih]

theorem analyze_broken (limits : AnalysisLimits Float) {p : ProgramFile} {ls : List (List Char)}
    {line : List UInt8} {rest : List (List UInt8)} (hopen : p.isSealed = false)
    (h : Text.decode? line = none)
    (hlines : Text.octetLines p.octets = ls.map Text.encode ++ line :: rest) :
    p.analyze limits = .error (.unreadable p.path ls.length DiskError.notText.message) := by
  have hread : textLines (Text.octetLines p.octets) = (ls, true) := by
    rw [hlines, textLines_broken ls h]
  have hfault : p.fault? = some (.unreadable p.path ls.length DiskError.notText.message) := by
    simp only [fault?, lines, hopen, hread, if_true, Bool.false_eq_true, if_false]
  rw [analyze, hfault]

end ProgramFile

/-! ### The first line that is no text -/

/-- Lines that are not all texts, cut at the first one that is none. -/
theorem Text.exists_first_broken {ls : List (List UInt8)} (h : ¬∀ l ∈ ls, IsText l) :
    ∃ (front : List (List Char)) (line : List UInt8) (rest : List (List UInt8)),
      ls = front.map encode ++ line :: rest ∧ decode? line = none := by
  induction ls with
  | nil =>
    refine absurd ?_ h
    intro l hl
    cases hl
  | cons l ls ih =>
    by_cases hl : IsText l
    · have hls : ¬∀ m ∈ ls, IsText m := fun hall => h (List.forall_mem_cons.mpr ⟨hl, hall⟩)
      obtain ⟨front, line, rest, rfl, hline⟩ := ih hls
      obtain ⟨cs, rfl⟩ := hl
      exact ⟨cs :: front, line, rest, rfl, hline⟩
    · exact ⟨[], l, ls, rfl, not_isText_iff.mp hl⟩

/-- A file is analyzed as the text that its octets are. If they are none, the analysis ends in an
error that counts the lines in front of the first one that is no text. -/
theorem file_analyzed_as_text (limits : AnalysisLimits Float) {d : Disk} {path : String}
    {content : Content} (h : d.file? path = some content) :
    (∀ cs, Text.decode? content.bytes = some cs →
      analyzeFile limits d path = .ok (analyzeText limits cs)) ∧
    (Text.decode? content.bytes = none → ∃ front line rest,
      Text.octetLines content.bytes = front ++ line :: rest ∧
      (∀ l ∈ front, Text.decode? l ≠ none) ∧ Text.decode? line = none ∧
      analyzeFile limits d path =
        .error (.unreadable path front.length DiskError.notText.message)) := by
  have hopen : analyzeFile limits d path =
      ProgramFile.analyze limits { path, octets := content.bytes } := by
    rw [analyzeFile, ProgramFile.open?, Disk.find_of_file? h]
    rfl
  rw [hopen]
  refine ⟨?text, ?broken⟩
  case text =>
    intro cs hcs
    rw [Text.encode_of_decode? hcs]
    exact ProgramFile.analyze_encode limits path cs
  case broken =>
    intro hnone
    have hnot : ¬∀ l ∈ Text.octetLines content.bytes, Text.IsText l :=
      fun hall => Text.not_isText_iff.mpr hnone (Text.isText_of_octetLines hall)
    obtain ⟨front, line, rest, hlines, hline⟩ := Text.exists_first_broken hnot
    refine ⟨front.map Text.encode, line, rest, hlines, ?_, hline, ?_⟩
    · intro l hl
      obtain ⟨cs, _, rfl⟩ := List.mem_map.mp hl
      rw [Text.decode?_encode]
      exact Option.some_ne_none cs
    · rw [ProgramFile.analyze_broken limits rfl hline hlines, List.length_map]

/-! ### All kinds of line ends, and octets of no text -/

def endingsProgram : List Char := "G21\r\nG0 X1\rY2\n\nM30".toList

def brokenProgram : List UInt8 := Text.encode "G21\nG0 X".toList ++ [0xFF, 0xFE, 10]

def programDisk : Disk where
  entries :=
    [(["endings.nc"], .file (.octets (Text.encode endingsProgram))),
      (["broken.nc"], .file (.octets brokenProgram))]

theorem programDisk_analyzed :
    programDisk.file? "endings.nc" = some (.octets (Text.encode endingsProgram)) ∧
    analyzeFile ({} : AnalyzerSettings).limits programDisk "endings.nc" =
      .ok (analyzeText ({} : AnalyzerSettings).limits endingsProgram) ∧
    programDisk.file? "broken.nc" = some (.octets brokenProgram) ∧
    Text.decode? brokenProgram = none ∧
    ∃ front line rest, Text.octetLines brokenProgram = front ++ line :: rest ∧
      (∀ l ∈ front, Text.decode? l ≠ none) ∧ Text.decode? line = none ∧
      analyzeFile ({} : AnalyzerSettings).limits programDisk "broken.nc" =
        .error (.unreadable "broken.nc" front.length DiskError.notText.message) := by
  have hendings : programDisk.file? "endings.nc" =
      some (.octets (Text.encode endingsProgram)) := rfl
  have hbroken : programDisk.file? "broken.nc" = some (.octets brokenProgram) := rfl
  have hnone : Text.decode? brokenProgram = none := by decide
  exact ⟨hendings, (file_analyzed_as_text _ hendings).1 _ (Text.decode?_encode endingsProgram),
    hbroken, hnone, (file_analyzed_as_text _ hbroken).2 hnone⟩

end BasRelief
