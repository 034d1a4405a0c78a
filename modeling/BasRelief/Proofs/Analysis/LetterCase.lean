import BasRelief.Analysis.Analyzer
import BasRelief.Proofs.Gcode.LineWords
import Mathlib.Data.List.Forall2

/-!
# Upper and lower case

A line in upper case has the token of the line as it is: comments, blanks, digits, signs and line
ends are no letters, and a letter is only ever looked at through its upper case. So two programs
whose letters differ in case alone have the same tokens and the same report.
-/

namespace BasRelief

namespace Text
open Gcode (forall_numbered)

def upper (cs : List Char) : List Char := cs.map Char.toUpper

/-- The same characters, but for the case of the letters from A to Z. -/
def Recased : List Char → List Char → Prop :=
  List.Forall₂ fun c d => d = c ∨ d = c.toUpper ∨ d = c.toLower

instance : DecidableRel Recased := inferInstanceAs (DecidableRel (List.Forall₂ _))

/-! ### Letters -/

def smallLetters : List Nat := List.range' 97 26

def capitalLetters : List Nat := List.range' 65 26

theorem toUpper_eq_self {c : Char} (h : c.toNat ∉ smallLetters) : c.toUpper = c := by
  delta Char.toUpper
  apply dif_neg
  rintro ⟨hfirst, hlast⟩
  have hfirst' : 97 ≤ c.toNat := UInt32.le_iff_toNat_le.mp hfirst
  have hlast' : c.toNat ≤ 122 := UInt32.le_iff_toNat_le.mp hlast
  exact h (List.mem_range'_1.mpr (by omega))

theorem toLower_eq_self {c : Char} (h : c.toNat ∉ capitalLetters) : c.toLower = c := by
  delta Char.toLower
  apply dif_neg
  rintro ⟨hfirst, hlast⟩
  have hfirst' : 65 ≤ c.toNat := UInt32.le_iff_toNat_le.mp hfirst
  have hlast' : c.toNat ≤ 90 := UInt32.le_iff_toNat_le.mp hlast
  exact h (List.mem_range'_1.mpr (by omega))

theorem toUpper_toUpper (c : Char) : c.toUpper.toUpper = c.toUpper := by
  by_cases hc : c.toNat ∈ smallLetters
  · exact forall_numbered (p := fun c => c.toUpper.toUpper = c.toUpper) (by decide) hc
  · rw [toUpper_eq_self hc, toUpper_eq_self hc]

theorem toUpper_toLower (c : Char) : c.toLower.toUpper = c.toUpper := by
  by_cases hc : c.toNat ∈ capitalLetters
  · exact forall_numbered (p := fun c => c.toLower.toUpper = c.toUpper) (by decide) hc
  · rw [toLower_eq_self hc]

theorem Recased.upper_eq {cs ds : List Char} (h : Recased cs ds) : upper cs = upper ds := by
  induction h with
  | nil => rfl
  | @cons c d cs ds hd _ ih =>
    have hc : c.toUpper = d.toUpper := by
      rcases hd with rfl | rfl | rfl
      · rfl
      · exact (toUpper_toUpper c).symm
      · exact (toUpper_toLower c).symm
    simp only [upper, List.map_cons, List.cons.injEq] at ih ⊢
    exact ⟨hc, ih⟩

/-! ### Characters that are no letters -/

/-- A kind of characters with no letter from A to Z in it. -/
structure NoLetter (p : Char → Bool) : Prop where
  small : ∀ n ∈ smallLetters, p (Char.ofNat n) = false
  capital : ∀ n ∈ smallLetters, p (Char.ofNat n).toUpper = false

namespace NoLetter
variable {p : Char → Bool}

theorem toUpper (h : NoLetter p) (c : Char) : p c.toUpper = p c := by
  by_cases hc : c.toNat ∈ smallLetters
  · have hsmall := forall_numbered (p := fun c => p c = false) h.small hc
    have hcapital := forall_numbered (p := fun c => p c.toUpper = false) h.capital hc
    rw [hcapital, hsmall]
  · rw [toUpper_eq_self hc]

theorem toUpper_eq (h : NoLetter p) {c : Char} (hc : p c = true) : c.toUpper = c := by
  apply toUpper_eq_self
  intro hletter
  have hsmall := forall_numbered (p := fun c => p c = false) h.small hletter
  simp [hc] at hsmall

theorem comp_toUpper (h : NoLetter p) : p ∘ Char.toUpper = p := funext h.toUpper

theorem takeWhile_upper (h : NoLetter p) (cs : List Char) :
    (upper cs).takeWhile p = cs.takeWhile p := by
  rw [upper, List.takeWhile_map, h.comp_toUpper]
  have hself : ∀ c ∈ cs.takeWhile p, c.toUpper = id c :=
    fun c hc => h.toUpper_eq (List.mem_takeWhile_imp hc)
  rw [List.map_congr_left hself, List.map_id]

end NoLetter

theorem toUpper_eq_symbol_iff {d : Char} (h : NoLetter (· == d)) (c : Char) :
    c.toUpper = d ↔ c = d := by
  have hc := h.toUpper c
  rw [← beq_iff_eq, hc, beq_iff_eq]

theorem noLetter_blank : NoLetter isBlank := ⟨by decide, by decide⟩

theorem noLetter_scriptDigit : NoLetter isScriptDigit := ⟨by decide, by decide⟩

theorem trim_upper (cs : List Char) : trim (upper cs) = upper (trim cs) := by
  simp only [trim, trimEnd, upper, ← List.map_reverse, List.dropWhile_map,
    noLetter_blank.comp_toUpper]

end Text

namespace Gcode
open Text

theorem noLetter_comment : NoLetter startsComment := ⟨by decide, by decide⟩

theorem noLetter_valueChar : NoLetter isValueChar := ⟨by decide, by decide⟩

theorem stripComment_upper (l : List Char) : stripComment (upper l) = upper (stripComment l) := by
  have hcomment : (fun c => !startsComment c) ∘ Char.toUpper = fun c => !startsComment c := by
    funext c
    exact congrArg (!·) (noLetter_comment.toUpper c)
  have hfeed : (· != '\n') ∘ Char.toUpper = (· != '\n') := by
    funext c
    simp only [Function.comp, bne, NoLetter.toUpper (p := (· == '\n')) ⟨by decide, by decide⟩ c]
  simp only [stripComment, upper, List.takeWhile_map, List.dropWhile_map, hcomment, hfeed,
    List.map_append]

theorem gDigits?_upper (cs : List Char) : gDigits? (upper cs) = gDigits? cs := by
  induction cs with
  | nil => rfl
  | cons c cs ih =>
    show gDigits? (c.toUpper :: upper cs) = gDigits? (c :: cs)
    simp only [gDigits?, toUpper_toUpper, noLetter_scriptDigit.takeWhile_upper, ih]

theorem SignSplit.upper {cs body : List Char} {s : Numeral.Sign} (h : SignSplit cs s body) :
    SignSplit (Text.upper cs) s (Text.upper body) where
  eq := by
    rw [h.eq, Text.upper, List.map_append]
    cases s <;> rfl
  unsigned := by
    intro hs c hc
    rw [Text.upper, List.head?_map] at hc
    rcases Option.map_eq_some_iff.mp hc with ⟨d, hd, rfl⟩
    rw [Ne, Ne, toUpper_eq_symbol_iff ⟨by decide, by decide⟩,
      toUpper_eq_symbol_iff ⟨by decide, by decide⟩]
    exact h.unsigned hs d hd

theorem valueText?_upper (cs : List Char) : valueText? (upper cs) = valueText? cs := by
  rcases exists_signSplit cs with ⟨s, body, hsplit⟩
  rw [hsplit.valueText?_eq, hsplit.upper.valueText?_eq, noLetter_valueChar.takeWhile_upper]

theorem ofLetter?_toUpper (c : Char) : Axis.ofLetter? c.toUpper = Axis.ofLetter? c := by
  unfold Axis.ofLetter?
  rw [toUpper_toUpper]

theorem occurrences_upper (cs : List Char) : occurrences (upper cs) = occurrences cs := by
  induction cs with
  | nil => rfl
  | cons c cs ih =>
    show occurrences (c.toUpper :: upper cs) = occurrences (c :: cs)
    simp only [occurrences, ofLetter?_toUpper, valueText?_upper, ih]

/-- A line in upper case has the token of the line. -/
theorem Token.read?_upper {α : Type} [Scalar α] (number : Nat) (l : List Char) :
    (read? number (upper l) : Option (Token α)) = read? number l := by
  have hempty (cs : List Char) : upper cs = [] ↔ cs = [] := List.map_eq_nil_iff
  simp only [read?, stripComment_upper, trim_upper, hempty, ofText, gDigits?_upper,
    occurrences_upper]

end Gcode

/-! ### Programs -/

namespace Text

theorem toUpper_eq_feed_iff (c : Char) : c.toUpper = '\n' ↔ c = '\n' :=
  toUpper_eq_symbol_iff ⟨by decide, by decide⟩ c

theorem pieces_upper (cs : List Char) :
    pieces '\n' (upper cs) = (pieces '\n' cs).map (Prod.map upper id) := by
  induction cs with
  | nil => rfl
  | cons c cs ih =>
    show addSymbol '\n' c.toUpper (pieces '\n' (upper cs)) = _
    rw [ih, pieces_cons]
    cases pieces '\n' cs with
    | nil =>
      simp only [List.map_nil, addSymbol, toUpper_eq_feed_iff]
      split <;> rfl
    | cons piece rest =>
      simp only [List.map_cons, addSymbol, toUpper_eq_feed_iff]
      split <;> rfl

theorem withoutReturn_upper (piece : List Char × Bool) :
    withoutReturn '\r' (Prod.map upper id piece) = upper (withoutReturn '\r' piece) := by
  rcases piece with ⟨cs, closed⟩
  have hlast : (upper cs).getLast? = some '\r' ↔ cs.getLast? = some '\r' := by
    rw [upper, List.getLast?_map, Option.map_eq_some_iff]
    simp only [toUpper_eq_symbol_iff (d := '\r') ⟨by decide, by decide⟩, exists_eq_right]
  simp only [withoutReturn, Prod.map, id, hlast]
  split
  · rw [upper, upper, List.map_dropLast]
  · rfl

theorem lines_upper (cs : List Char) : lines (upper cs) = (lines cs).map upper := by
  simp only [lines, pieces_upper, List.map_map]
  apply List.map_congr_left
  intro piece _
  exact withoutReturn_upper piece

end Text

variable {α : Type} [Scalar α]

theorem analyzeLines_upper (limits : AnalysisLimits α) (ls : List (List Char)) :
    analyzeLines limits (ls.map Text.upper) = analyzeLines limits ls := by
  have hline (a : Analysis α) (l : List Char) : a.line limits (Text.upper l) = a.line limits l := by
    simp only [Analysis.line, Gcode.Token.read?_upper]
  simp only [analyzeLines, Analysis.lines, List.foldl_map, hline]

theorem map_upper_eq {ls ms : List (List Char)} (h : List.Forall₂ Text.Recased ls ms) :
    ls.map Text.upper = ms.map Text.upper := by
  induction h with
  | nil => rfl
  | cons hl _ ih => simp only [List.map_cons, hl.upper_eq, ih]

/-- No letter's case counts: not for the token of a line, and so not for the report of a program,
whether it comes as lines or as one text. -/
theorem recased_program_report (limits : AnalysisLimits α) :
    (∀ (number : Nat) {l m : List Char}, Text.Recased l m →
      (Gcode.Token.read? number l : Option (Gcode.Token α)) = Gcode.Token.read? number m) ∧
    (∀ {ls ms : List (List Char)}, List.Forall₂ Text.Recased ls ms →
      analyzeLines limits ls = analyzeLines limits ms) ∧
    ∀ {cs ds : List Char}, Text.Recased cs ds → analyzeText limits cs = analyzeText limits ds := by
  refine ⟨?line, ?lines, ?text⟩
  case line =>
    intro number l m h
    rw [← Gcode.Token.read?_upper, h.upper_eq, Gcode.Token.read?_upper]
  case lines =>
    intro ls ms h
    rw [← analyzeLines_upper, map_upper_eq h, analyzeLines_upper]
  case text =>
    intro cs ds h
    rw [analyzeText, analyzeText, ← analyzeLines_upper, ← Text.lines_upper, h.upper_eq,
      Text.lines_upper, analyzeLines_upper]

def mixedCaseText : List Char := "g1 x1.5 Yoke f80\nG0 z2. (Fast)\r\nx1..2".toList

def otherCaseText : List Char := "G1 X1.5 yOKe F80\ng0 Z2. (fAsT)\r\nX1..2".toList

theorem otherCaseText_report :
    Text.Recased mixedCaseText otherCaseText ∧
    (Gcode.Token.read? 3 mixedCaseText : Option (Gcode.Token Float)) =
      Gcode.Token.read? 3 otherCaseText ∧
    analyzeLines ({} : AnalyzerSettings).limits (Text.lines mixedCaseText) =
      analyzeLines ({} : AnalyzerSettings).limits (Text.lines otherCaseText) ∧
    analyzeText ({} : AnalyzerSettings).limits mixedCaseText =
      analyzeText ({} : AnalyzerSettings).limits otherCaseText := by
  have hreport := recased_program_report ({} : AnalyzerSettings).limits
  have htext : Text.Recased mixedCaseText otherCaseText := by decide
  have hlines : List.Forall₂ Text.Recased (Text.lines mixedCaseText) (Text.lines otherCaseText) := by
    decide
  exact ⟨htext, hreport.1 3 htext, hreport.2.1 hlines, hreport.2.2 htext⟩

end BasRelief
