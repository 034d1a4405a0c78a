import BasRelief.Document.Json.Reader
import BasRelief.Document.Json.Writer
import BasRelief.Proofs.Decimal.PointedText
import BasRelief.Proofs.Number.ShortestReads

/-!
# JSON numbers read back

A number that is written is one lexeme, and reading finds its parts again. An integer of 64 bits is
read as that integer. A double always shows a point or a power of ten, so it is read as a double,
if as any number.
-/

namespace BasRelief.Document.Json
open Decimal

/-! ### Lexemes as text -/

namespace Lexeme

def fractionText : Option (List Char) → List Char
  | none => []
  | some ds => '.' :: ds

def exponentText : Option (Bool × List Char) → List Char
  | none => []
  | some (negative, ds) => 'e' :: (if negative then '-' else '+') :: ds

def text (l : Lexeme) : List Char :=
  signed l.negative (l.whole ++ (fractionText l.fraction ++ exponentText l.exponent))

/-- Digits as the grammar asks for them. -/
structure IsProper (l : Lexeme) : Prop where
  whole : Decimal.IsWhole l.whole
  wholeDigit : ∀ c ∈ l.whole, isDigit c = true
  fraction : ∀ ds ∈ l.fraction, ds ≠ [] ∧ ∀ c ∈ ds, isDigit c = true
  exponent : ∀ e ∈ l.exponent, e.2 ≠ [] ∧ ∀ c ∈ e.2, isDigit c = true

end Lexeme

theorem isWhole_eq_true {cs : List Char} (h : Decimal.IsWhole cs)
    (hdigit : ∀ c ∈ cs, isDigit c = true) : isWhole cs = true := by
  obtain rfl | ⟨c, rest, rfl, hc⟩ := h
  · rfl
  · have hall : (c :: rest).all isDigit = true := List.all_eq_true.mpr hdigit
    unfold isWhole
    split
    · cases ‹c :: rest = []›
    · rfl
    · next heq =>
      obtain ⟨rfl, rfl⟩ := List.cons.inj heq
      rw [hall, Bool.and_true, bne_iff_ne]
      exact hc

theorem readExponent?_exponentText {e : Option (Bool × List Char)}
    (h : ∀ x ∈ e, x.2 ≠ [] ∧ ∀ c ∈ x.2, isDigit c = true) :
    readExponent? (Lexeme.exponentText e) = some e := by
  cases e with
  | none => rfl
  | some e =>
    obtain ⟨negative, ds⟩ := e
    obtain ⟨hne, hdigit⟩ := h _ rfl
    have hsign : exponentSign ((if negative then '-' else '+') :: ds) = (negative, ds) := by
      cases negative <;> rfl
    have hall : ds.all isDigit = true := List.all_eq_true.mpr hdigit
    rw [Lexeme.exponentText, readExponent?, hsign]
    exact if_pos ⟨.inl rfl, hne, hall⟩

theorem head?_exponentText (e : Option (Bool × List Char)) :
    ∀ c ∈ (Lexeme.exponentText e).head?, isDigit c = false := by
  intro c hc
  cases e with
  | none => cases hc
  | some e => obtain rfl := Option.some.inj hc; decide

theorem readFraction?_text {f : Option (List Char)} {e : Option (Bool × List Char)}
    (hf : ∀ ds ∈ f, ds ≠ [] ∧ ∀ c ∈ ds, isDigit c = true)
    (he : ∀ x ∈ e, x.2 ≠ [] ∧ ∀ c ∈ x.2, isDigit c = true) :
    readFraction? (Lexeme.fractionText f ++ Lexeme.exponentText e) = some (f, e) := by
  have hexponent := readExponent?_exponentText he
  cases f with
  | none =>
    rw [Lexeme.fractionText, List.nil_append]
    unfold readFraction?
    split
    · next heq =>
      cases e with
      | none => cases heq
      | some e => exact absurd (List.cons.inj heq).1 (by decide)
    · rw [hexponent]
      rfl
  | some ds =>
    obtain ⟨hne, hdigit⟩ := hf ds rfl
    obtain ⟨htake, hdrop⟩ := takeWhile_run hdigit (head?_exponentText e)
    rw [Lexeme.fractionText, List.cons_append, readFraction?, htake, hdrop, if_neg hne, hexponent]
    rfl

/-- A number that is written by its parts is read into these parts. -/
theorem lexeme?_text {l : Lexeme} (h : l.IsProper) : lexeme? l.text = some l := by
  have hrest : ∀ c ∈ (Lexeme.fractionText l.fraction ++ Lexeme.exponentText l.exponent).head?,
      isDigit c = false := by
    cases l.fraction with
    | none => exact head?_exponentText l.exponent
    | some ds => exact fun c hc => by obtain rfl := Option.some.inj hc; decide
  obtain ⟨htake, hdrop⟩ := takeWhile_run h.wholeDigit hrest
  have hnegative : (l.text.head? == some '-') = l.negative := by
    obtain ⟨c, rest, hwhole⟩ := List.exists_cons_of_ne_nil h.whole.ne_nil
    have hc : isDigit c = true := h.wholeDigit c (hwhole ▸ List.mem_cons_self)
    unfold Lexeme.text
    rw [hwhole]
    cases l.negative with
    | true => rfl
    | false =>
      apply beq_false_of_ne
      intro heq
      obtain rfl := Option.some.inj heq
      exact absurd hc (by decide)
  have hbody : (if l.negative = true then l.text.drop 1 else l.text) =
      l.whole ++ (Lexeme.fractionText l.fraction ++ Lexeme.exponentText l.exponent) := by
    unfold Lexeme.text
    cases l.negative <;> rfl
  unfold lexeme?
  dsimp only
  rw [hnegative, hbody, htake, hdrop, if_pos (isWhole_eq_true h.whole h.wholeDigit),
    readFraction?_text h.fraction h.exponent]
  rfl

/-! ### Words -/

theorem mem_of_endsWord {c : Char} (h : endsWord c = true) :
    c ∈ [' ', '\n', '\t', '\r', '"', '[', ']', '\x7b', '\x7d', ',', ':'] := by
  unfold endsWord at h
  rw [Bool.or_eq_true, Bool.or_eq_true, decide_eq_true_eq] at h
  obtain (hblank | rfl) | hpunctuation := h
  · simp only [isBlank, Bool.or_eq_true, decide_eq_true_eq] at hblank
    obtain ((rfl | rfl) | rfl) | rfl := hblank
    all_goals decide
  · decide
  · unfold punctuation? at hpunctuation
    split at hpunctuation
    case h_7 => cases hpunctuation
    all_goals decide

/-- One word for the scanner. -/
structure IsWord (cs : List Char) : Prop where
  ne_nil : cs ≠ []
  inside : ∀ c ∈ cs, endsWord c = false

instance (cs : List Char) : Decidable (IsWord cs) :=
  decidable_of_iff (cs ≠ [] ∧ cs.any endsWord = false)
    ⟨fun h => ⟨h.1, fun c hc => Bool.eq_false_iff.mpr (List.any_eq_false.mp h.2 c hc)⟩,
      fun h => ⟨h.ne_nil, List.any_eq_false.mpr fun c hc => Bool.eq_false_iff.mp (h.inside c hc)⟩⟩

theorem endsWord_eq_false {c : Char}
    (h : c ∉ [' ', '\n', '\t', '\r', '"', '[', ']', '\x7b', '\x7d', ',', ':']) :
    endsWord c = false := by
  cases hends : endsWord c with
  | false => rfl
  | true => exact absurd (mem_of_endsWord hends) h

theorem endsWord_of_isDigit {c : Char} (h : isDigit c = true) : endsWord c = false := by
  apply endsWord_eq_false
  intro hmem
  simp only [List.mem_cons, List.not_mem_nil, or_false] at hmem
  obtain rfl | rfl | rfl | rfl | rfl | rfl | rfl | rfl | rfl | rfl | rfl := hmem
  all_goals exact absurd h (by decide)

namespace Lexeme
variable {l : Lexeme} (h : l.IsProper)
include h

theorem mem_text {c : Char} (hc : c ∈ l.text) :
    isDigit c = true ∨ c ∈ ['-', '+', '.', 'e'] := by
  have hbody (hc : c ∈ l.whole ++ (fractionText l.fraction ++ exponentText l.exponent)) :
      isDigit c = true ∨ c ∈ ['-', '+', '.', 'e'] := by
    obtain hc | hc := List.mem_append.mp hc
    · exact .inl (h.wholeDigit c hc)
    obtain hc | hc := List.mem_append.mp hc
    · cases hf : l.fraction with
      | none => rw [hf] at hc; cases hc
      | some ds =>
        rw [hf] at hc
        obtain rfl | hc := List.mem_cons.mp hc
        · exact .inr (by decide)
        · exact .inl ((h.fraction ds hf).2 c hc)
    · cases he : l.exponent with
      | none => rw [he] at hc; cases hc
      | some e =>
        rw [he] at hc
        obtain rfl | hc := List.mem_cons.mp hc
        · exact .inr (by decide)
        obtain rfl | hc := List.mem_cons.mp hc
        · right
          split <;> decide
        · exact .inl ((h.exponent e he).2 c hc)
  unfold text at hc
  cases hneg : l.negative with
  | false => rw [hneg] at hc; exact hbody hc
  | true =>
    rw [hneg] at hc
    obtain rfl | hc := List.mem_cons.mp hc
    · exact .inr (by decide)
    · exact hbody hc

theorem isWord_text : IsWord l.text where
  ne_nil := by
    obtain ⟨c, rest, hwhole⟩ := List.exists_cons_of_ne_nil h.whole.ne_nil
    unfold text
    rw [hwhole]
    cases l.negative <;> exact List.cons_ne_nil _ _
  inside := by
    intro c hc
    obtain hdigit | hsign := mem_text h hc
    · exact endsWord_of_isDigit hdigit
    · simp only [List.mem_cons, List.not_mem_nil, or_false] at hsign
      obtain rfl | rfl | rfl | rfl := hsign
      all_goals decide

theorem wordValue?_text : wordValue? l.text = some l.value := by
  have hword {w : String} (hw : 'l' ∈ w.toList ∨ 'u' ∈ w.toList) : String.ofList l.text ≠ w := by
    rintro rfl
    rw [String.toList_ofList] at hw
    obtain hw | hw := hw
    all_goals exact absurd (mem_text h hw) (by decide)
  unfold wordValue?
  split
  · exact absurd ‹_› (hword (by decide))
  · exact absurd ‹_› (hword (by decide))
  · exact absurd ‹_› (hword (by decide))
  · rw [lexeme?_text h, Option.map_some]

end Lexeme

/-! ### Integers -/

def integerLexeme (n : Int) : Lexeme := ⟨decide (n < 0), digits n.natAbs, none, none⟩

theorem integerLexeme_isProper (n : Int) : (integerLexeme n).IsProper where
  whole := isWhole_digits n.natAbs
  wholeDigit := fun _ => isDigit_of_mem_digits
  fraction := fun _ h => by cases h
  exponent := fun _ h => by cases h

theorem text_integerLexeme (n : Int) : (integerLexeme n).text = integerText n := by
  show signed _ (digits n.natAbs ++ ([] ++ [])) = signed _ (digits n.natAbs)
  rw [List.append_nil, List.append_nil]
  rfl

theorem isWord_integerText (n : Int) : IsWord (integerText n) :=
  text_integerLexeme n ▸ Lexeme.isWord_text (integerLexeme_isProper n)

/-- An integer that fits in 64 bits, with a sign if it is negative, is read as itself. -/
theorem wordValue?_integerText {n : Int} (hlow : -Int.pow 2 63 ≤ n) (hhigh : n < Int.pow 2 64) :
    wordValue? (integerText n) = some (.integer n) := by
  rw [← text_integerLexeme, Lexeme.wordValue?_text (integerLexeme_isProper n)]
  have hlow : -(2 : Int) ^ 63 ≤ n := hlow
  have hhigh : n < (2 : Int) ^ 64 := hhigh
  unfold Lexeme.value integerLexeme
  dsimp only
  rw [value_digits]
  obtain hneg | hpos := lt_or_ge n 0
  · have hfits : 0 < n.natAbs ∧ n.natAbs ≤ Nat.pow 2 63 := by
      show 0 < n.natAbs ∧ n.natAbs ≤ 2 ^ 63
      omega
    have hsize : -(n.natAbs : Int) = n := by omega
    rw [decide_eq_true hneg, decide_eq_true hfits.1, decide_eq_true hfits.2, hsize]
    rfl
  · have hfits : n.natAbs < Nat.pow 2 64 := by
      show n.natAbs < 2 ^ 64
      omega
    have hsize : (n.natAbs : Int) = n := by omega
    rw [decide_eq_false (not_lt.mpr hpos), decide_eq_true hfits, hsize]
    rfl

/-! ### Doubles -/

/-- The double that is read where a double was written, if there is one. -/
def reread? (x : Float) : Option Float := (lexeme? (floatText x)).bind Lexeme.float?

namespace Lexeme

def digits (l : Lexeme) : List Char := l.whole ++ l.fraction.getD []

/-- The power of ten that is written. -/
def shownPower (l : Lexeme) : Int :=
  match l.exponent with
  | none => 0
  | some (negative, ds) => if negative then -(Decimal.value ds : Int) else Decimal.value ds

/-- The power of ten of all digits as a whole number. -/
def power (l : Lexeme) : Int := l.shownPower - (l.fraction.getD []).length

/-- A lexeme that is no integer and means `n · 10 ^ e`. With a power of ten there is no zero in
front, and all digits fit in 64 bits. -/
structure Means (l : Lexeme) (n : Nat) (e : Int) : Prop where
  proper : l.IsProper
  shown : l.fraction.isSome ∨ l.exponent.isSome
  value_eq : (Decimal.value l.digits : Rat) * 10 ^ l.power = n * 10 ^ e
  full : l.exponent = none ∨ 10 ^ (l.fraction.getD []).length ≤ Decimal.value l.digits
  few : Decimal.value l.digits < 2 ^ 64

end Lexeme

theorem pointed_lexeme (negative : Bool) {n : Nat} {e : Int} (h : n = 0 → e = 0)
    (hn : n < 2 ^ 64) (hsize : (n * 10 ^ e * 10 : Rat) < (2 ^ 64 : Nat)) :
    ∃ l : Lexeme, l.negative = negative ∧ l.Means n e ∧ signed negative (pointed n e) = l.text := by
  obtain ⟨whole, fraction, hparts, htext⟩ := pointed_eq_parts h
  have hproper : (⟨negative, whole, some fraction, none⟩ : Lexeme).IsProper := by
    refine ⟨hparts.whole_isWhole, fun c hc => hparts.digit c (List.mem_append_left _ hc), ?_,
      fun _ h => by cases h⟩
    intro ds hds
    obtain rfl := Option.some.inj hds
    exact ⟨hparts.fraction_ne_nil, fun c hc => hparts.digit c (List.mem_append_right _ hc)⟩
  refine ⟨⟨negative, whole, some fraction, none⟩, rfl,
    ⟨hproper, .inl rfl, ?_, .inl rfl, hparts.value_lt hn hsize⟩, ?_⟩
  · have hpower : (⟨negative, whole, some fraction, none⟩ : Lexeme).power = -fraction.length :=
      Int.zero_sub _
    rw [hpower]
    exact hparts.value_eq
  · rw [htext, Lexeme.text, Lexeme.fractionText, Lexeme.exponentText, List.append_nil]

theorem pow_le_value_digits {n : Nat} (hn : 0 < n) : 10 ^ ((digits n).length - 1) ≤ n := by
  induction n using digits.induct with
  | case1 n h =>
    rw [digits, if_pos h]
    exact hn
  | case2 n h ih =>
    have hrest := ih (by omega)
    have hne := List.length_pos_iff.mpr (digits_ne_nil (n / 10))
    have hsucc : (digits (n / 10)).length = (digits (n / 10)).length - 1 + 1 := by omega
    rw [digits, if_neg h, List.length_append, List.length_singleton, Nat.add_sub_cancel, hsucc,
      Nat.pow_succ]
    omega

theorem scientific_lexeme (negative : Bool) {n : Nat} (hn : 0 < n) (hn' : n < 2 ^ 64) (e : Int) :
    ∃ l : Lexeme, l.negative = negative ∧ l.Means n e ∧
      signed negative (scientific n e) = l.text := by
  obtain ⟨d, rest, hdigits, hd⟩ := head_digits_ne_zero hn
  have hdigit : ∀ c ∈ d :: rest, isDigit c = true := fun c hc =>
    isDigit_of_mem_digits (hdigits ▸ hc)
  have hlength : (digits n).length - 1 = rest.length := by rw [hdigits]; rfl
  generalize hpower : e + ((digits n).length - 1 : Nat) = power
  let l : Lexeme := ⟨negative, [d], if rest = [] then none else some rest,
    some (decide (power < 0), digits power.natAbs)⟩
  have hfraction : l.fraction.getD [] = rest := by
    show (if rest = [] then none else some rest).getD [] = rest
    split
    · next hnil => rw [hnil]; rfl
    · rfl
  have hall : l.digits = digits n := by
    rw [Lexeme.digits, hfraction, hdigits]
    rfl
  have hshown : l.shownPower = power := by
    show (if decide (power < 0) = true then -(value (digits power.natAbs) : Int)
      else value (digits power.natAbs)) = power
    rw [value_digits]
    split
    · next hneg => have := of_decide_eq_true hneg; omega
    · next hpos => have := of_decide_eq_false (Bool.not_eq_true _ ▸ hpos); omega
  have hproper : l.IsProper := by
    refine ⟨.inr ⟨d, [], rfl, hd⟩, ?_, ?_, ?_⟩
    · intro c hc
      exact hdigit c (List.mem_singleton.mp hc ▸ List.mem_cons_self)
    · intro ds hds
      have hds : (if rest = [] then none else some rest) = some ds := hds
      split at hds
      · cases hds
      · obtain rfl := Option.some.inj hds
        exact ⟨‹_›, fun c hc => hdigit c (List.mem_cons_of_mem d hc)⟩
    · intro x hx
      obtain rfl := Option.some.inj hx
      exact ⟨digits_ne_nil _, fun c => isDigit_of_mem_digits⟩
  refine ⟨l, rfl, ⟨hproper, .inr rfl, ?_, .inr ?_, ?_⟩, ?_⟩
  · have hsame : l.power = e := by
      rw [Lexeme.power, hshown, hfraction]
      omega
    rw [hall, value_digits, hsame]
  · rw [hall, hfraction, value_digits, ← hlength]
    exact pow_le_value_digits hn
  · rw [hall, value_digits]
    exact hn'
  · unfold scientific Lexeme.text
    dsimp only
    rw [hpower, hdigits]
    cases rest with
    | nil =>
      obtain hneg | hpos := lt_or_ge power 0
      · simp [l, Lexeme.fractionText, Lexeme.exponentText, hneg]
      · simp [l, Lexeme.fractionText, Lexeme.exponentText, not_lt.mpr hpos]
    | cons c rest =>
      obtain hneg | hpos := lt_or_ge power 0
      · simp [l, Lexeme.fractionText, Lexeme.exponentText, hneg]
      · simp [l, Lexeme.fractionText, Lexeme.exponentText, not_lt.mpr hpos]

theorem magnitudeText_lexeme (negative : Bool) {n : Nat} {e : Int} (h : n = 0 → e = 0)
    (hn : n < 2 ^ 64) :
    ∃ l : Lexeme, l.negative = negative ∧ l.Means n e ∧
      signed negative (magnitudeText n e) = l.text := by
  unfold magnitudeText
  dsimp only
  split
  · next hnear =>
    apply pointed_lexeme negative h hn
    have hlength : (n : Rat) < 10 ^ (Decimal.length n : Int) := by
      rw [zpow_natCast]
      exact_mod_cast Interval.lt_pow_length n
    calc (n * 10 ^ e * 10 : Rat)
      _ ≤ 10 ^ (Decimal.length n : Int) * 10 ^ e * 10 := by gcongr
      _ = 10 ^ (Decimal.length n + e + 1) := by
        rw [zpow_add_one₀ (by norm_num), zpow_add₀ (by norm_num)]
      _ ≤ 10 ^ (17 : Int) := zpow_le_zpow_right₀ (by norm_num) (by omega)
      _ < (2 ^ 64 : Nat) := by norm_num
  · next hfar =>
    refine scientific_lexeme negative (Nat.pos_of_ne_zero ?_) hn e
    rintro rfl
    rw [h rfl] at hfar
    exact hfar (by decide +kernel)

/-- What is written for a double: a zero with its sign, or a number nearest to the double. -/
theorem floatText_lexeme {x : Float} {a : Rat} (hx : Double.value? x = some a) :
    ∃ (l : Lexeme) (s : Float.Model.UnpackedFloat.Sign) (n : Nat) (e : Int),
      l.negative = (s == .negative) ∧ l.Means n e ∧ floatText x = l.text ∧
      (x.toModel.unpack = .zero s ∨ a ≠ 0 ∧ Double.Nearest (Double.factor s * (n * 10 ^ e)) a) := by
  unfold floatText Binary.ofFloat
  obtain ⟨s, hzero⟩ | ⟨s, m, e, hm, hunpack, hne, hpos, hnear⟩ :=
    Double.zero_or_nearest_shortest .even hx
  · have hshortest : Double.shortest .even 0 0 = (0, 0) := rfl
    obtain ⟨l, hnegative, hmeans, htext⟩ :=
      magnitudeText_lexeme (s == .negative) (n := 0) (e := 0) (fun _ => rfl) (by decide)
    refine ⟨l, s, 0, 0, hnegative, hmeans, ?_, .inl hzero⟩
    rw [hzero]
    show signed (s == .negative) (magnitudeText (Double.shortest .even 0 0).1
      (Double.shortest .even 0 0).2) = l.text
    rw [hshortest, htext]
  · have hdigits : (Double.shortest .even m e).1 < 2 ^ 64 := by
      have hvalue := Double.hasValue_unpack hx
      rw [hunpack] at hvalue
      cases hvalue with
      | finite canonical _ => exact Double.shortest_lt .even hm canonical
    obtain ⟨l, hnegative, hmeans, htext⟩ := magnitudeText_lexeme (s == .negative)
      (e := (Double.shortest .even m e).2) (fun hn => absurd hn hpos.ne') hdigits
    rw [hunpack]
    exact ⟨l, s, _, _, hnegative, hmeans, htext, .inr ⟨hne, hnear⟩⟩

theorem isWord_floatText {x : Float} {a : Rat} (hx : Double.value? x = some a) :
    IsWord (floatText x) := by
  obtain ⟨l, _, _, _, _, hmeans, htext, _⟩ := floatText_lexeme hx
  exact htext ▸ Lexeme.isWord_text hmeans.proper

/-- A double is read as a double or as nothing, never as an integer. -/
theorem wordValue?_floatText {x : Float} {a : Rat} (hx : Double.value? x = some a) :
    wordValue? (floatText x) = some (((reread? x).map Value.float).getD .unreadable) := by
  obtain ⟨l, _, _, _, _, hmeans, htext, _⟩ := floatText_lexeme hx
  have hreread : reread? x = l.float? := by
    rw [reread?, htext, lexeme?_text hmeans.proper, Option.bind_some]
  have hwhole : (l.fraction.isNone && l.exponent.isNone) = false := by
    obtain h | h := hmeans.shown
    · rw [Option.isNone_eq_false_iff.mpr h, Bool.false_and]
    · rw [Option.isNone_eq_false_iff.mpr h, Bool.and_false]
  rw [htext, Lexeme.wordValue?_text hmeans.proper, hreread, Lexeme.value, hwhole]
  cases l.float? <;> rfl

end BasRelief.Document.Json
