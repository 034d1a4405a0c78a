import BasRelief.Proofs.Decimal.FixedText
import BasRelief.Gcode.Token

/-!
# The words of a line

A blank ends every value, so a line is searched word by word: what is found in two texts with a
blank between them is what is found in each. A word made of a letter and the text of a value holds
that value, and none if the text is the name of a value that is not finite.
-/

namespace BasRelief.Gcode
open Decimal Numeral

/-! ### Comments -/

theorem stripComment_eq_takeWhile {l : List Char} (h : '\n' ∉ l) :
    stripComment l = l.takeWhile fun c => !startsComment c := by
  have hrest : (l.dropWhile fun c => !startsComment c).dropWhile (· != '\n') = [] := by
    rw [List.dropWhile_eq_nil_iff]
    intro c hc
    have hmem : c ∈ l := (List.dropWhile_sublist _).mem hc
    exact bne_iff_ne.mpr fun heq => h (heq ▸ hmem)
  rw [stripComment, hrest, List.append_nil]

/-! ### Characters -/

theorem forall_numbered {p : Char → Prop} {ns : List Nat} (h : ∀ n ∈ ns, p (Char.ofNat n)) {c : Char}
    (hc : c.toNat ∈ ns) : p c := by
  have hp := h c.toNat hc
  rwa [Char.ofNat_toNat] at hp

theorem forall_isDigit {p : Char → Prop} (h : ∀ n : Fin 10, p (digitChar n.val)) {c : Char}
    (hc : isDigit c = true) : p c := by
  have hrange := toNat_of_isDigit hc
  have hn := h ⟨c.toNat - 48, by omega⟩
  have hsum : 48 + (c.toNat - 48) = c.toNat := by omega
  simp only [digitChar, hsum, Char.ofNat_toNat] at hn
  exact hn

theorem isValueChar_of_isDigit {c : Char} (h : isDigit c = true) : isValueChar c = true :=
  forall_isDigit (p := fun c => isValueChar c = true) (by decide) h

theorem ofLetter?_of_isDigit {c : Char} (h : isDigit c = true) : Axis.ofLetter? c = none :=
  forall_isDigit (p := fun c => Axis.ofLetter? c = none) (by decide) h

/-- A character that neither starts nor goes on with a value. -/
structure EndsValue (c : Char) : Prop where
  valueChar : isValueChar c = false
  plus : c ≠ '+'
  minus : c ≠ '-'

theorem endsValue_blank : EndsValue ' ' := ⟨by decide, by decide, by decide⟩

/-! ### Signs -/

theorem isValueChar_plain {c : Char} (h : isValueChar c = true) : c ∉ ['+', '-', 'e', 'E'] := by
  simp only [List.mem_cons, List.not_mem_nil, or_false, not_or]
  refine ⟨?_, ?_, ?_, ?_⟩ <;> rintro rfl <;> exact absurd h (by decide)

theorem ne_sign_of_isValueChar {c : Char} (h : isValueChar c = true) : c ≠ '+' ∧ c ≠ '-' := by
  have hplain := isValueChar_plain h
  simp only [List.mem_cons, not_or] at hplain
  exact ⟨hplain.1, hplain.2.1⟩

/-- A text as a sign, if it starts with one, and the rest. -/
structure SignSplit (cs : List Char) (s : Sign) (body : List Char) : Prop where
  eq : cs = s.text ++ body
  unsigned : s = .none → ∀ c ∈ body.head?, c ≠ '+' ∧ c ≠ '-'

theorem exists_signSplit (cs : List Char) : ∃ s body, SignSplit cs s body := by
  by_cases hplus : cs.head? = some '+'
  · obtain ⟨body, rfl⟩ := List.head?_eq_some_iff.mp hplus
    exact ⟨.plus, body, rfl, nofun⟩
  by_cases hminus : cs.head? = some '-'
  · obtain ⟨body, rfl⟩ := List.head?_eq_some_iff.mp hminus
    exact ⟨.minus, body, rfl, nofun⟩
  refine ⟨.none, cs, rfl, fun _ c hc => ⟨?_, ?_⟩⟩
  · rintro rfl
    exact hplus hc
  · rintro rfl
    exact hminus hc

namespace SignSplit
variable {cs body : List Char} {s : Sign}

theorem unique (h : SignSplit cs s body) {t : Sign} {rest : List Char}
    (hother : SignSplit cs t rest) : t = s ∧ rest = body := by
  obtain ⟨rfl, hs⟩ := h
  obtain ⟨heq, ht⟩ := hother
  cases s <;> cases t <;> grind [Sign.text]

theorem valueText?_eq (h : SignSplit cs s body) :
    valueText? cs =
      if body.takeWhile isValueChar = [] then none
      else some (s.text ++ body.takeWhile isValueChar) := by
  obtain ⟨rfl, hs⟩ := h
  cases s with
  | plus => rfl
  | minus => rfl
  | none =>
    cases body with
    | nil => rfl
    | cons c rest =>
      have hc : ¬(c = '+' ∨ c = '-') := by
        have hne := hs rfl c rfl
        grind
      show valueText? (c :: rest) = _
      rw [valueText?]
      simp only [if_neg hc]
      rfl

end SignSplit

/-! ### Texts with a blank between them -/

theorem takeWhile_append_stop {β : Type} {p : β → Bool} {c : β} (h : p c = false) (a b : List β) :
    (a ++ c :: b).takeWhile p = a.takeWhile p := by
  induction a with
  | nil => rw [List.nil_append, List.takeWhile_cons_of_neg (by simp [h]), List.takeWhile_nil]
  | cons d a ih => rw [List.cons_append, List.takeWhile_cons, List.takeWhile_cons, ih]

theorem valueText?_append_stop {c : Char} (h : EndsValue c) (a b : List Char) :
    valueText? (a ++ c :: b) = valueText? a := by
  cases a with
  | nil =>
    have hsign : ¬(c = '+' ∨ c = '-') := fun hs => hs.elim h.plus h.minus
    have hrun : (c :: b).takeWhile isValueChar = [] :=
      List.takeWhile_cons_of_neg (by simp [h.valueChar])
    show valueText? (c :: b) = none
    simp only [valueText?, if_neg hsign, hrun, if_true]
  | cons d a =>
    have hrest := takeWhile_append_stop h.valueChar a b
    have hwhole := takeWhile_append_stop h.valueChar (d :: a) b
    rw [List.cons_append] at hwhole
    rw [List.cons_append, valueText?, valueText?]
    by_cases hd : d = '+' ∨ d = '-'
    · simp only [if_pos hd, hrest]
    · simp only [if_neg hd, hwhole]

theorem occurrences_append_stop {c : Char} (h : EndsValue c) (a b : List Char) :
    occurrences (a ++ c :: b) = occurrences a ++ occurrences (c :: b) := by
  induction a with
  | nil => rfl
  | cons d a ih =>
    rw [List.cons_append, occurrences, occurrences, valueText?_append_stop h, ih]
    cases Axis.ofLetter? d <;> cases valueText? a <;> rfl

theorem gDigits?_append_stop {c : Char} (h : Text.isScriptDigit c = false) (a b : List Char) :
    gDigits? (a ++ c :: b) = (gDigits? a).or (gDigits? (c :: b)) := by
  induction a with
  | nil => rfl
  | cons d a ih =>
    have hrun := takeWhile_append_stop h a b
    rw [List.cons_append, gDigits?, gDigits?, hrun, ih]
    split <;> rfl

theorem occurrences_cons_of_none {c : Char} (h : Axis.ofLetter? c = none) (cs : List Char) :
    occurrences (c :: cs) = occurrences cs := by
  rw [occurrences, h]

theorem occurrences_eq_nil {cs : List Char} (h : ∀ c ∈ cs, Axis.ofLetter? c = none) :
    occurrences cs = [] := by
  induction cs with
  | nil => rfl
  | cons c cs ih =>
    rw [occurrences_cons_of_none (h c List.mem_cons_self)]
    exact ih fun d hd => h d (List.mem_cons_of_mem _ hd)

/-! ### The texts of values -/

/-- The texts that values are printed as: a numeral, or a name. -/
inductive ValueText : List Char → Prop where
  | numeral (negative : Bool) (places units : Nat) :
      ValueText (signed negative (placed places units))
  | named {cs : List Char} (h : cs ∈ ["NaN".toList, "inf".toList, "-inf".toList]) : ValueText cs

namespace ValueText

theorem ne_nil {cs : List Char} (h : ValueText cs) : cs ≠ [] := by
  cases h with
  | numeral negative places units =>
    cases negative with
    | true => exact List.cons_ne_nil _ _
    | false => exact placed_ne_nil places units
  | named h =>
    rintro rfl
    revert h
    decide

/-- What is true of the digits, the point, the minus and the letters of the names is true of every
character. -/
theorem forall_mem {p : Char → Bool} (hdigit : ∀ c, isDigit c = true → p c = true)
    (hrest : ".-NaNinf".toList.all p = true) {cs : List Char} (h : ValueText cs) :
    ∀ c ∈ cs, p c = true := by
  have hchars : ∀ c ∈ ".-NaNinf".toList, p c = true := List.all_eq_true.mp hrest
  have hnames : ∀ cs ∈ ["NaN".toList, "inf".toList, "-inf".toList],
      (cs.all fun c => ".-NaNinf".toList.contains c) = true := by decide
  intro c hc
  cases h with
  | named h => exact hchars c (List.contains_iff_mem.mp (List.all_eq_true.mp (hnames cs h) c hc))
  | numeral negative places units =>
    obtain h | rfl | rfl := mem_signed_placed hc
    · exact hdigit c h
    · exact hchars '.' (by decide)
    · exact hchars '-' (by decide)

end ValueText

theorem valueText?_numeral (negative : Bool) (places units : Nat) :
    valueText? (signed negative (placed places units)) =
      some (signed negative (placed places units)) := by
  have hchars : ∀ c ∈ placed places units, isValueChar c = true := by
    intro c hc
    obtain h | rfl := mem_placed hc
    · exact isValueChar_of_isDigit h
    · decide
  have hrun := List.takeWhile_eq_self_iff.mpr hchars
  obtain ⟨s, -, hsigned⟩ := exists_sign negative (placed places units)
  have hsplit : SignSplit (signed negative (placed places units)) s (placed places units) :=
    ⟨hsigned, fun _ c hc => ne_sign_of_isValueChar (hchars c (List.mem_of_mem_head? hc))⟩
  rw [hsplit.valueText?_eq, hrun, if_neg (placed_ne_nil places units), ← hsigned]

theorem occurrences_numeral (a : Axis) (negative : Bool) (places units : Nat) :
    occurrences (a.letter :: signed negative (placed places units)) =
      [⟨a, signed negative (placed places units)⟩] := by
  have hnone : occurrences (signed negative (placed places units)) = [] := by
    apply occurrences_eq_nil
    intro c hc
    obtain h | rfl | rfl := mem_signed_placed hc
    · exact ofLetter?_of_isDigit h
    · decide
    · decide
  rw [occurrences, Axis.ofLetter?_letter, valueText?_numeral, hnone]

/-- The word with the text of a value is found again if and only if the text is a numeral. -/
theorem occurrences_valueText (a : Axis) {cs : List Char} (h : ValueText cs) :
    occurrences (a.letter :: cs) = [⟨a, cs⟩].filter fun o => (Numeral.read? o.text).isSome := by
  cases h with
  | numeral negative places units =>
    have hread := Numeral.read?_signed_placed negative places units
    rw [occurrences_numeral, List.filter_cons_of_pos (by rw [hread]; rfl), List.filter_nil]
  | named h =>
    -- the last letter of `inf` names an axis, but nothing follows it
    have hnames : ∀ a : Axis, ∀ cs ∈ ["NaN".toList, "inf".toList, "-inf".toList],
        occurrences (a.letter :: cs) = [] ∧ Numeral.read? cs = none := by
      intro a
      cases a <;> decide
    obtain ⟨hfound, hread⟩ := hnames a cs h
    rw [hfound, List.filter_cons_of_neg (by rw [hread]; decide), List.filter_nil]

end BasRelief.Gcode
