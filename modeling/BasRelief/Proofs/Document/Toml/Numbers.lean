import BasRelief.Document.Toml.Reader
import BasRelief.Document.Toml.Writer
import BasRelief.Proofs.Decimal.PointedText
import BasRelief.Proofs.Number.ShortestReads

/-!
# TOML numbers read back

A number that is written is a run of scalar characters that is no word and no moment. Integers are
read as they are, and doubles because the shortest decimal of a double is read as that double.
-/

namespace BasRelief.Document.Toml
open Decimal

/-! ### Digits -/

theorem digitGroups?_digits {cs : List Char} (hne : cs ≠ []) (h : ∀ c ∈ cs, isDigit c = true) :
    digitGroups? isDigit cs = some cs := by
  induction cs with
  | nil => exact absurd rfl hne
  | cons c cs ih =>
    have hc : isDigit c = true := h c List.mem_cons_self
    cases cs with
    | nil => rw [digitGroups?, if_pos hc]
    | cons d rest =>
      have hd : d ≠ '_' := by
        rintro rfl
        exact absurd (h '_' (by simp)) (by decide)
      have hrest := ih (List.cons_ne_nil d rest) fun c hc => h c (List.mem_cons_of_mem _ hc)
      unfold digitGroups?
      split
      · exact absurd ‹_› (List.cons_ne_nil _ _)
      · cases ‹c :: d :: rest = [_]›
      · exact absurd (List.cons.inj (List.cons.inj ‹_›).2).1 hd
      · obtain ⟨rfl, rfl⟩ := List.cons.inj ‹c :: d :: rest = _›
        rw [if_pos hc, hrest, Option.map_some]

theorem wholeDigits?_digits {cs : List Char} (hwhole : IsWhole cs)
    (h : ∀ c ∈ cs, isDigit c = true) : wholeDigits? cs = some cs := by
  rw [wholeDigits?, digitGroups?_digits hwhole.ne_nil h]
  split
  · rename_i heq
    obtain rfl := Option.some.inj heq
    obtain heq | ⟨c, rest, heq, hc⟩ := hwhole
    · cases heq
    · exact absurd (List.cons.inj heq).1.symm hc
  · rfl

/-! ### No moments -/

theorem fixedDigits?_eq_drop {count n : Nat} {cs rest : List Char}
    (h : fixedDigits? count cs = some (n, rest)) : rest = cs.drop count := by
  unfold fixedDigits? at h
  dsimp only at h
  split at h
  · exact (Prod.mk.inj (Option.some.inj h)).2.symm
  · cases h

theorem date?_eq_none {cs : List Char} (h : '-' ∉ cs.drop 1) : date? cs = none := by
  unfold date?
  cases hyear : fixedDigits? 4 cs with
  | none => rfl
  | some found =>
    obtain ⟨year, rest⟩ := found
    obtain rfl := fixedDigits?_eq_drop hyear
    have hhead : (cs.drop 4).head? ≠ some '-' := by
      intro hdash
      have hmem : '-' ∈ (cs.drop 1).drop 3 := by
        rw [List.drop_drop]
        exact List.mem_of_mem_head? hdash
      exact h (List.mem_of_mem_drop hmem)
    have hguard : guard ((cs.drop 4).head? = some '-') = (none : Option Unit) := if_neg hhead
    simp only [Option.bind_eq_bind, Option.bind_some, hguard, Option.bind_none]

theorem time?_eq_none {cs : List Char} (h : ':' ∉ cs) : time? cs = none := by
  unfold time?
  cases hhour : fixedDigits? 2 cs with
  | none => rfl
  | some found =>
    obtain ⟨hour, rest⟩ := found
    obtain rfl := fixedDigits?_eq_drop hhour
    have hhead : (cs.drop 2).head? ≠ some ':' := fun hcolon =>
      h (List.mem_of_mem_drop (List.mem_of_mem_head? hcolon))
    have hguard : guard ((cs.drop 2).head? = some ':' ∧ hour ≤ 23) = (none : Option Unit) :=
      if_neg fun hboth => hhead hboth.1
    simp only [Option.bind_eq_bind, Option.bind_some, hguard, Option.bind_none]

theorem isDate_eq_false {cs : List Char} (h : '-' ∉ cs.drop 1) : isDate cs = false := by
  rw [isDate, date?_eq_none h]
  rfl

theorem isMoment_eq_false {cs : List Char} (hdash : '-' ∉ cs.drop 1) (hcolon : ':' ∉ cs) :
    isMoment cs = false := by
  rw [isMoment, date?_eq_none hdash, time?_eq_none hcolon]
  rfl

/-! ### Runs of a number -/

/-- A digit or a sign, and then digits and points. -/
structure IsNumber (cs : List Char) : Prop where
  head : ∃ c rest, cs = c :: rest ∧ (isDigit c = true ∨ c = '-')
  tail : ∀ c ∈ cs.drop 1, isDigit c = true ∨ c = '.'

theorem isNumber_signed (negative : Bool) {c : Char} {cs : List Char} (hc : isDigit c = true)
    (h : ∀ d ∈ cs, isDigit d = true ∨ d = '.') : IsNumber (signed negative (c :: cs)) := by
  cases negative with
  | false => exact ⟨⟨c, cs, rfl, .inl hc⟩, h⟩
  | true =>
    refine ⟨⟨'-', c :: cs, rfl, .inr rfl⟩, fun d hd => ?_⟩
    obtain rfl | hd := List.mem_cons.mp hd
    · exact .inl hc
    · exact h d hd

namespace IsNumber

theorem cases_mem {cs : List Char} (h : IsNumber cs) {c : Char} (hc : c ∈ cs) :
    isDigit c = true ∨ c = '-' ∨ c = '.' := by
  obtain ⟨⟨d, rest, rfl, hd⟩, htail⟩ := h
  obtain rfl | hc := List.mem_cons.mp hc
  · exact hd.imp_right .inl
  · exact (htail c hc).imp_right .inr

theorem not_mem {cs : List Char} (h : IsNumber cs) {c : Char}
    (hc : ¬(isDigit c = true ∨ c = '-' ∨ c = '.')) : c ∉ cs := fun hmem => hc (h.cases_mem hmem)

theorem dash_not_mem {cs : List Char} (h : IsNumber cs) : '-' ∉ cs.drop 1 := fun hmem =>
  absurd (h.tail '-' hmem) (by decide)

theorem isScalarChar {cs : List Char} (h : IsNumber cs) :
    ∀ c ∈ cs, Toml.isScalarChar c = true := by
  intro c hc
  obtain hdigit | rfl | rfl := h.cases_mem hc
  · obtain ⟨hlow, hhigh⟩ := toNat_of_isDigit hdigit
    have hchar : c.isDigit = true := by
      rw [Char.isDigit, Bool.and_eq_true, decide_eq_true_eq, decide_eq_true_eq]
      exact ⟨hlow, hhigh⟩
    rw [Toml.isScalarChar, Char.isAlphanum, hchar, Bool.or_true]
    rfl
  · decide
  · decide

theorem run?_eq {cs : List Char} (h : IsNumber cs) (rest : List Char) :
    run? (cs ++ '\n' :: rest) = (scalar? cs).map fun v => (v, '\n' :: rest) := by
  have htake : (cs ++ '\n' :: rest).takeWhile Toml.isScalarChar = cs := by
    refine (takeWhile_run h.isScalarChar fun c hc => ?_).1
    obtain rfl := Option.some.inj hc
    decide
  unfold run?
  dsimp only
  rw [htake, List.drop_left, isDate_eq_false h.dash_not_mem]

theorem scalar?_eq {cs : List Char} (h : IsNumber cs) :
    scalar? cs =
      match (decimalFloat? cs <|> specialFloat? cs), integer? cs with
      | some x, _ => some (.float x)
      | none, some n => some (.integer n)
      | none, none => none := by
  have hword {w : String} (hw : 'e' ∈ w.toList) : String.ofList cs ≠ w := by
    rintro rfl
    rw [String.toList_ofList] at hw
    exact h.not_mem (by decide) hw
  unfold scalar?
  split
  · exact absurd ‹_› (hword (by decide))
  · exact absurd ‹_› (hword (by decide))
  · have hmoment := isMoment_eq_false h.dash_not_mem (h.not_mem (c := ':') (by decide))
    exact if_neg (by rw [hmoment]; exact Bool.false_ne_true)

theorem specialFloat?_eq {cs : List Char} (h : IsNumber cs) : specialFloat? cs = none := by
  have hword {w : String} (hw : 'n' ∈ w.toList) : String.ofList cs ≠ w := by
    rintro rfl
    rw [String.toList_ofList] at hw
    exact h.not_mem (by decide) hw
  unfold specialFloat?
  split
  all_goals first | rfl | exact absurd ‹_› (hword (by decide))

theorem value?_eq {cs : List Char} (h : IsNumber cs) (depth : Nat) (rest : List Char) :
    value? depth (cs ++ '\n' :: rest) = run? (cs ++ '\n' :: rest) := by
  obtain ⟨⟨c, tail, rfl, hc⟩, -⟩ := h
  rw [List.cons_append]
  have hne {d : Char} (hd : ¬(isDigit d = true ∨ d = '-')) : c ≠ d := by
    rintro rfl
    exact hd hc
  unfold value?
  split
  · exact absurd (List.cons.inj ‹_›).1 (hne (by decide))
  · exact absurd (List.cons.inj ‹_›).1 (hne (by decide))
  · exact absurd (List.cons.inj ‹_›).1 (hne (by decide))
  · exact absurd (List.cons.inj ‹_›).1 (hne (by decide))
  · rfl

end IsNumber

/-! ### Integers -/

theorem isNumber_integerText (n : Int) : IsNumber (Json.integerText n) := by
  unfold Json.integerText
  cases hds : digits n.natAbs with
  | nil => exact absurd hds (digits_ne_nil _)
  | cons c cs =>
    have hdigit : ∀ d ∈ c :: cs, isDigit d = true := fun d hd =>
      isDigit_of_mem_digits (hds ▸ hd)
    exact isNumber_signed _ (hdigit c List.mem_cons_self) fun d hd =>
      .inl (hdigit d (List.mem_cons_of_mem _ hd))

theorem wholeDigits?_digits_self (n : Nat) : wholeDigits? (digits n) = some (digits n) :=
  wholeDigits?_digits (isWhole_digits n) fun _ => isDigit_of_mem_digits

theorem integer?_integerText {n : Int} (hlow : -Int.pow 2 63 ≤ n) (hhigh : n < Int.pow 2 63) :
    integer? (Json.integerText n) = some n := by
  have hguard : guard (-Int.pow 2 63 ≤ n ∧ n < Int.pow 2 63) = some () := if_pos ⟨hlow, hhigh⟩
  unfold Json.integerText
  obtain hneg | hpos := lt_or_ge n 0
  · have hsize : -((n.natAbs : Nat) : Int) = n := by omega
    rw [decide_eq_true hneg]
    show integer? ('-' :: digits n.natAbs) = some n
    unfold integer?
    simp only [wholeDigits?_digits_self, Option.map_some, value_digits, hsize,
      Option.bind_eq_bind, Option.bind_some, hguard]
    rfl
  · have hsize : ((n.natAbs : Nat) : Int) = n := by omega
    have hdigit : ∀ c ∈ digits n.natAbs, isDigit c = true := fun c => isDigit_of_mem_digits
    have hwhole := wholeDigits?_digits_self n.natAbs
    have hvalue := value_digits n.natAbs
    rw [decide_eq_false (not_lt.mpr hpos)]
    show integer? (digits n.natAbs) = some n
    generalize digits n.natAbs = ds at hdigit hwhole hvalue
    unfold integer?
    split
    case h_1 => exact absurd (hdigit 'x' (by simp)) (by decide)
    case h_2 => exact absurd (hdigit 'o' (by simp)) (by decide)
    case h_3 => exact absurd (hdigit 'b' (by simp)) (by decide)
    case h_4 => exact absurd (hdigit '-' (by simp)) (by decide)
    case h_5 => exact absurd (hdigit '+' (by simp)) (by decide)
    case h_6 =>
      simp only [hwhole, Option.map_some, hvalue, hsize, Option.bind_eq_bind, Option.bind_some,
        hguard]
      rfl

/-! ### Signs -/

theorem head?_signed (negative : Bool) {c : Char} (cs : List Char) (hc : isDigit c = true) :
    ((signed negative (c :: cs)).head? == some '+' ||
      (signed negative (c :: cs)).head? == some '-') = negative := by
  cases negative with
  | true => rfl
  | false =>
    have hne {d : Char} (hd : isDigit d = false) : ((some c : Option Char) == some d) = false := by
      apply beq_false_of_ne
      rintro heq
      obtain rfl := Option.some.inj heq
      rw [hd] at hc
      cases hc
    show ((some c : Option Char) == some '+' || (some c : Option Char) == some '-') = false
    rw [hne (by decide), hne (by decide), Bool.or_false]

theorem drop_signed (negative : Bool) (cs : List Char) :
    (if negative = true then (signed negative cs).drop 1 else signed negative cs) = cs := by
  cases negative <;> rfl

theorem take_signed (negative : Bool) (cs : List Char) :
    (if negative = true then (signed negative cs).take 1 else []) = signed negative [] := by
  cases negative <;> rfl

theorem signed_nil_append (negative : Bool) (cs : List Char) :
    signed negative [] ++ cs = signed negative cs := by
  cases negative <;> rfl

theorem takeWhile_digits {cs : List Char} (h : ∀ c ∈ cs, isDigit c = true) (rest : List Char)
    (hrest : ∀ c ∈ rest.head?, isDigit c = false ∧ c ≠ '_') :
    (cs ++ rest).takeWhile (fun c => isDigit c || decide (c = '_')) = cs := by
  refine (takeWhile_run (fun c hc => ?_) fun c hc => ?_).1
  · rw [h c hc, Bool.true_or]
  · obtain ⟨hdigit, hne⟩ := hrest c hc
    rw [hdigit, decide_eq_false hne, Bool.or_false]

theorem decimalFloat?_integerText (n : Int) : decimalFloat? (Json.integerText n) = none := by
  have hrun := takeWhile_digits (fun c => isDigit_of_mem_digits (n := n.natAbs) (c := c))
    [] (fun c hc => by cases hc)
  have hwhole := wholeDigits?_digits_self n.natAbs
  have hdigit : ∀ c ∈ digits n.natAbs, isDigit c = true := fun c => isDigit_of_mem_digits
  unfold Json.integerText
  rw [List.append_nil] at hrun
  generalize digits n.natAbs = ds at hrun hwhole hdigit
  cases ds with
  | nil => cases hwhole
  | cons c cs =>
    have hguard : guard (!(List.drop (c :: cs).length (c :: cs)).isEmpty) =
        (none : Option Unit) := by
      rw [List.drop_length]
      rfl
    unfold decimalFloat?
    simp only [head?_signed _ cs (hdigit c List.mem_cons_self), drop_signed, hrun, hwhole,
      Option.bind_eq_bind, Option.bind_some, hguard, Option.bind_none]

theorem scalar?_integerText {n : Int} (hlow : -Int.pow 2 63 ≤ n) (hhigh : n < Int.pow 2 63) :
    scalar? (Json.integerText n) = some (.integer n) := by
  have hnumber := isNumber_integerText n
  rw [hnumber.scalar?_eq, decimalFloat?_integerText, hnumber.specialFloat?_eq,
    integer?_integerText hlow hhigh]
  rfl

/-! ### Doubles -/

theorem decimalFloat?_pointed (negative : Bool) {whole fraction : List Char}
    (hwhole : IsWhole whole) (hfraction : fraction ≠ [])
    (h : ∀ c ∈ whole ++ fraction, isDigit c = true) {x : Float}
    (hx : Double.ofNumeral ⟨negative, value (whole ++ fraction), -fraction.length⟩ = x)
    (hfinite : (x != Double.infinity) = true) :
    decimalFloat? (signed negative (whole ++ '.' :: fraction)) = some x := by
  have hdigits : ∀ c ∈ whole, isDigit c = true := fun c hc => h c (List.mem_append_left _ hc)
  have hrun := takeWhile_digits hdigits ('.' :: fraction)
    (fun c hc => by obtain rfl := Option.some.inj hc; decide)
  have hafter := takeWhile_digits (fun c hc => h c (List.mem_append_right _ hc)) []
    (fun c hc => by cases hc)
  rw [List.append_nil] at hafter
  have hgroups := digitGroups?_digits hfraction fun c hc => h c (List.mem_append_right _ hc)
  have hread := Numeral.read?_signed_withPoint negative hwhole.ne_nil h
  rw [withPoint, if_neg hfraction] at hread
  have hpart : fractionPart? ('.' :: fraction) = some ('.' :: fraction, []) := by
    simp only [fractionPart?, hafter, hgroups, Option.map_some, List.drop_length]
  have hjoin : signed negative [] ++ whole ++ '.' :: fraction ++ [] =
      signed negative (whole ++ '.' :: fraction) := by
    rw [List.append_nil, List.append_assoc, signed_nil_append]
  have hend : exponentPart? [] = some [] := rfl
  have hrest : guard (!('.' :: fraction).isEmpty) = some () := rfl
  have hkeep : guard (x != Double.infinity) = some () := if_pos hfinite
  obtain ⟨c, cs, rfl⟩ := List.exists_cons_of_ne_nil hwhole.ne_nil
  have hhead := head?_signed negative (cs ++ '.' :: fraction) (hdigits c List.mem_cons_self)
  unfold decimalFloat?
  rw [List.cons_append] at hrun hjoin hread ⊢
  simp only [hhead, drop_signed, take_signed, hrun, wholeDigits?_digits hwhole hdigits,
    Option.bind_eq_bind, Option.bind_some]
  rw [← List.cons_append, List.drop_left]
  simp only [hrest, hpart, hend, hjoin, hread, hx, hkeep, Option.bind_some]
  rfl

/-- The text of a double is digits with a point, and they are read as the double. -/
theorem floatText_parts {x : Float} {a : Rat} (hx : Double.value? x = some a) :
    ∃ negative whole fraction, IsWhole whole ∧ fraction ≠ [] ∧
      (∀ c ∈ whole ++ fraction, isDigit c = true) ∧
      floatText x = signed negative (whole ++ '.' :: fraction) ∧
      Double.ofNumeral ⟨negative, value (whole ++ fraction), -fraction.length⟩ = x := by
  unfold floatText Binary.ofFloat
  obtain ⟨s, hzero⟩ | ⟨s, m, e, hm, hunpack, hne, hpos, hnear⟩ :=
    Double.zero_or_nearest_shortest .up hx
  · have hwritten : pointed 0 0 = ['0'] ++ '.' :: ['0'] := by decide +kernel
    have hread := Double.eq_of_unpack_zero (Double.ofNumeral_zero s) hzero
    refine ⟨s == .negative, ['0'], ['0'], .inl rfl, List.cons_ne_nil _ _, ?_, ?_, hread⟩
    · exact List.all_eq_true.mp rfl
    · rw [← hwritten, hzero]
      rfl
  · obtain ⟨whole, fraction, hparts, htext⟩ :=
      pointed_eq_parts (e := (Double.shortest .up m e).2) fun hzero => absurd hzero hpos.ne'
    have hnumeral : Double.Nearest
        (Numeral.toRat ⟨s == .negative, value (whole ++ fraction), -fraction.length⟩) a := by
      rw [Double.toRat_factor, hparts.value_eq]
      exact hnear
    refine ⟨s == .negative, whole, fraction, hparts.whole_isWhole, hparts.fraction_ne_nil,
      hparts.digit, ?_, Double.ofNumeral_eq_of_nearest hx hne hnumeral⟩
    rw [hunpack]
    show signed (s == .negative)
      (pointed (Double.shortest .up m e).1 (Double.shortest .up m e).2) = _
    rw [htext]

theorem bne_infinity {x : Float} {a : Rat} (hx : Double.value? x = some a) :
    (x != Double.infinity) = true := by
  have hvalue := Double.hasValue_unpack hx
  have hinfinite : Double.infinity.toModel.unpack = .infinity .positive := by rfl
  show (!(x.toModel.unpack.beq Double.infinity.toModel.unpack)) = true
  rw [hinfinite]
  generalize x.toModel.unpack = f at hvalue
  cases hvalue with
  | zero s h => rfl
  | finite canonical h => rfl

theorem isNumber_floatText {x : Float} {a : Rat} (hx : Double.value? x = some a) :
    IsNumber (floatText x) := by
  obtain ⟨negative, whole, fraction, hwhole, _, hdigit, htext, _⟩ := floatText_parts hx
  rw [htext]
  obtain ⟨c, cs, rfl⟩ := List.exists_cons_of_ne_nil hwhole.ne_nil
  apply isNumber_signed negative (hdigit c (by simp))
  intro d hd
  obtain hd | hd := List.mem_append.mp hd
  · exact .inl (hdigit d (by simp [hd]))
  · obtain rfl | hd := List.mem_cons.mp hd
    · exact .inr rfl
    · exact .inl (hdigit d (by simp [hd]))

theorem scalar?_floatText {x : Float} {a : Rat} (hx : Double.value? x = some a) :
    scalar? (floatText x) = some (.float x) := by
  have hnumber := isNumber_floatText hx
  obtain ⟨negative, whole, fraction, hwhole, hfraction, hdigit, htext, hread⟩ := floatText_parts hx
  have hdecimal := decimalFloat?_pointed negative hwhole hfraction hdigit hread (bne_infinity hx)
  rw [← htext] at hdecimal
  rw [hnumber.scalar?_eq, hdecimal]
  rfl

end BasRelief.Document.Toml
