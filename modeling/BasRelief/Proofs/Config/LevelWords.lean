import BasRelief.Config.Codec
import BasRelief.Proofs.Analysis.LetterCase
import BasRelief.Proofs.Document.Records

/-!
# Two readers of log levels

The word of a level is read in any case where it stands alone. In a document it is one of a list of
words, which holds each word in small letters and in capitals. So the two readers agree on words of
one case, and a word of mixed case has a level that no document can give.
-/

namespace BasRelief

/-! ### Small letters and capitals -/

namespace Text
open Gcode (forall_numbered)

def lower (cs : List Char) : List Char := cs.map Char.toLower

/-- All letters are small, or all are capitals. -/
def IsOneCase (cs : List Char) : Prop := lower cs = cs ∨ upper cs = cs

instance (cs : List Char) : Decidable (IsOneCase cs) := inferInstanceAs (Decidable (_ ∨ _))

theorem toLower_toLower (c : Char) : c.toLower.toLower = c.toLower := by
  by_cases hc : c.toNat ∈ capitalLetters
  · exact forall_numbered (p := fun c => c.toLower.toLower = c.toLower) (by decide) hc
  · rw [toLower_eq_self hc, toLower_eq_self hc]

theorem lower_lower (cs : List Char) : lower (lower cs) = lower cs := by
  simp only [lower, List.map_map, Function.comp_def, toLower_toLower]

theorem upper_lower (cs : List Char) : upper (lower cs) = upper cs := by
  simp only [upper, lower, List.map_map, Function.comp_def, toUpper_toLower]

end Text

namespace LogLevel
open Document Text

/-! ### Words -/

/-- A text in small letters. -/
def small (s : String) : String := String.ofList (lower s.toList)

/-- The words for the levels in small letters. -/
def smallWords : List (String × LogLevel) :=
  [("trace", trace), ("debug", debug), ("info", info), ("warn", warn), ("warning", warn),
   ("error", error)]

theorem ofWord?_eq_some_iff {s : String} {l : LogLevel} :
    ofWord? s = some l ↔ (small s, l) ∈ smallWords := by
  rw [ofWord?, show String.ofList (s.toList.map Char.toLower) = small s from rfl]
  generalize small s = w
  split <;> simp_all [smallWords, eq_comm]

theorem ofWord_eq_ok_iff {s : String} {l : LogLevel} :
    ofWord s = .ok l ↔ (small s, l) ∈ smallWords := by
  rw [← ofWord?_eq_some_iff, ofWord]
  cases ofWord? s with
  | none => exact iff_of_false (fun h => by cases h) fun h => by cases h
  | some l' => rw [Except.ok.injEq, Option.some.injEq]

theorem ofValue_text_eq_ok_iff {d : Dialect} {s : String} {l : LogLevel} :
    ofValue d (.text s) = .ok l ↔ (s, l) ∈ words :=
  Decoder.choice_text_eq_ok_iff (by decide) d

/-- A document takes the words in small letters and in capitals, and no others. -/
theorem mem_words_iff {s : String} {l : LogLevel} :
    (s, l) ∈ words ↔ (small s, l) ∈ smallWords ∧ IsOneCase s.toList := by
  have hwords : ∀ e ∈ words, (small e.1, e.2) ∈ smallWords ∧ IsOneCase e.1.toList := by
    decide +kernel
  have hsmall : ∀ e ∈ smallWords,
      e ∈ words ∧ (String.ofList (upper e.1.toList), e.2) ∈ words := by decide +kernel
  refine ⟨hwords (s, l), ?_⟩
  rintro ⟨hword, hcase⟩
  obtain ⟨hlower, hupper⟩ := hsmall _ hword
  obtain h | h := hcase
  · rw [small, h, String.ofList_toList] at hlower
    exact hlower
  · rw [small, String.toList_ofList, upper_lower, h, String.ofList_toList] at hupper
    exact hupper

theorem letter_of_ofWord {s : String} {l : LogLevel} (h : ofWord s = .ok l) :
    ∀ c ∈ s.toList, c.toNat ∈ smallLetters ∨ c.toNat ∈ capitalLetters := by
  have hletters : ∀ e ∈ smallWords, ∀ n ∈ e.1.toList.map Char.toNat, n ∈ smallLetters := by
    decide +kernel
  intro c hc
  have hlower : c.toLower ∈ (small s).toList := by
    rw [small, String.toList_ofList]
    exact List.mem_map_of_mem hc
  have hsmall := hletters _ (ofWord_eq_ok_iff.mp h) _ (List.mem_map_of_mem hlower)
  by_cases hcapital : c.toNat ∈ capitalLetters
  · exact .inr hcapital
  · rw [toLower_eq_self hcapital] at hsmall
    exact .inl hsmall

/-! ### Both readers -/

/-- A document takes a word exactly if it is read alone and has letters of one case; what is read
alone is a word of letters that a document takes in small ones; and both readers take the name that
is shown and written for a level. -/
theorem readers_agree_on_one_case (d : Dialect) (s : String) (l : LogLevel) :
    (ofValue d (.text s) = .ok l ↔ ofWord s = .ok l ∧ IsOneCase s.toList) ∧
    (ofWord s = .ok l ↔ ofValue d (.text (small s)) = .ok l) ∧
    (ofWord s = .ok l → ∀ c ∈ s.toList, c.toNat ∈ smallLetters ∨ c.toNat ∈ capitalLetters) ∧
    (l.toValue = .text l.name ∧ ofWord l.name = .ok l ∧ ofValue d (.text l.name) = .ok l) := by
  refine ⟨?_, ?_, letter_of_ofWord, ?_⟩
  · rw [ofValue_text_eq_ok_iff, mem_words_iff, ofWord_eq_ok_iff]
  · have hsmall : small (small s) = small s := by
      rw [small, small, String.toList_ofList, lower_lower]
    have hcase : IsOneCase (small s).toList := by
      rw [small, String.toList_ofList]
      exact .inl (lower_lower _)
    rw [ofValue_text_eq_ok_iff, mem_words_iff, hsmall, and_iff_left hcase, ofWord_eq_ok_iff]
  · cases l <;> exact ⟨rfl, rfl, rfl⟩

theorem mixedWord_read :
    ofWord "WaRnInG" = .ok warn ∧ ofValue .toml (.text "warning") = .ok warn ∧
      ∀ c ∈ "WaRnInG".toList, c.toNat ∈ smallLetters ∨ c.toNat ∈ capitalLetters := by
  have hword : ofWord "WaRnInG" = .ok warn := by decide +kernel
  have hsmall : small "WaRnInG" = "warning" := by decide +kernel
  obtain ⟨_, hdocument, hletters, _⟩ := readers_agree_on_one_case .toml "WaRnInG" warn
  rw [hsmall] at hdocument
  exact ⟨hword, hdocument.mp hword, hletters hword⟩

/-- A word with a capital in front has a level, and no document takes it. -/
theorem capitalised_word_refused :
    ofWord "Warn" = .ok warn ∧
      ofValue .json (.text "Warn") = .error (.unknownVariant "Warn") ∧
      ofValue .toml (.text "Warn") = .error (.unknownVariant "Warn") := by
  decide +kernel

end LogLevel
end BasRelief
