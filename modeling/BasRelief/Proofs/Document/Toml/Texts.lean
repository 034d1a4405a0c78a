import BasRelief.Document.Toml.Writer

/-!
# TOML texts read back

Every form in which a text is written is read as that text, whatever stands after the end of its
line.
-/

namespace BasRelief.Document.Toml

/-! ### Escapes -/

/-- What stands for a character between quotes: the character itself, or a backslash and what is
read as the character. -/
inductive Shows (c : Char) : List Char → Prop where
  | plain (hplain : isPlain c = true) (hslash : c ≠ '\\') : Shows c [c]
  | escaped {cs : List Char} (hread : ∀ rest, escape? (cs ++ rest) = some (c, rest))
      (hline : ∀ rest, afterContinuation? (cs ++ rest) = none) : Shows c ('\\' :: cs)

theorem lineEnd?_eq_none {c : Char} (hfeed : c ≠ '\n') (hreturn : c ≠ '\r') (cs : List Char) :
    lineEnd? (c :: cs) = none := by
  unfold lineEnd?
  split
  · exact absurd (List.cons.inj ‹_›).1 hfeed
  · exact absurd (List.cons.inj ‹_›).1 hreturn
  · rfl

theorem ne_of_isPlain {c d : Char} (hc : isPlain c = true) (hd : isPlain d = false) : c ≠ d := by
  rintro rfl
  rw [hc] at hd
  cases hd

theorem hexNumber?_control {n : Nat} (h : n < 128) :
    (hexNumber? ['0', '0', capitalHexDigit (n / 16), capitalHexDigit (n % 16)]).bind charOf? =
      some (Char.ofNat n) := by
  revert n
  decide +kernel

theorem shows_controlEscape {c : Char} (h : c.toNat < 128) : Shows c (controlEscape c.toNat) := by
  refine .escaped (fun rest => ?_) fun _ => rfl
  have hcode := hexNumber?_control h
  rw [Char.ofNat_toNat] at hcode
  generalize capitalHexDigit (c.toNat / 16) = high, capitalHexDigit (c.toNat % 16) = low
    at hcode ⊢
  have hlong : ¬('0' :: '0' :: high :: low :: rest).length < 4 := by simp
  show (if ('0' :: '0' :: high :: low :: rest).length < 4 then none
    else ((hexNumber? ['0', '0', high, low]).bind charOf?).map fun c => (c, rest)) = _
  rw [if_neg hlong, hcode]
  rfl

theorem shows_textChar (c : Char) : Shows c (textChar c) := by
  unfold textChar
  split
  all_goals try exact .escaped (fun _ => rfl) fun _ => rfl
  split
  · exact .plain ‹_› ‹_›
  · next hplain =>
    apply shows_controlEscape
    simp only [isPlain, Bool.or_eq_true, Bool.and_eq_true, decide_eq_true_eq, not_or,
      not_and] at hplain
    omega

theorem shows_quote : Shows '"' ['\\', '"'] := .escaped (fun _ => rfl) fun _ => rfl

theorem textChar_ne_quote {c : Char} (hc : c ≠ '"') : textChar c ≠ ['"'] := by
  intro heq
  have hshows := shows_textChar c
  rw [heq] at hshows
  cases hshows with
  | plain hplain hslash => exact hc rfl

namespace Shows

/-- Nothing that stands for a character begins like the end of a text, unless it is a quote. -/
theorem head_ne {c : Char} {shown : List Char} (h : Shows c shown) (hquote : shown ≠ ['"']) :
    ∃ d ds, shown = d :: ds ∧ d ≠ '"' := by
  cases h with
  | plain hplain hslash => exact ⟨c, [], rfl, fun hc => hquote (by rw [hc])⟩
  | escaped hread hline => exact ⟨'\\', _, rfl, by decide⟩

theorem basic_eq {c d : Char} {ds : List Char} (h : Shows c (d :: ds)) (hquote : d ≠ '"')
    (fuel : Nat) (rest : List Char) :
    basic (fuel + 1) (d :: ds ++ rest) =
      (basic fuel rest).map fun (text, rest) => (c :: text, rest) := by
  cases h with
  | plain hplain hslash =>
    rw [List.singleton_append, basic, if_neg hquote, if_neg hslash, if_pos hplain]
  | escaped hread hline =>
    rw [List.cons_append, basic, if_neg (by decide), if_pos rfl, hread]
    rfl

theorem multiBasic_eq {c : Char} {shown rest : List Char} (h : Shows c shown)
    (hclosing : closing? '"' (shown ++ rest) = none) (fuel : Nat) :
    multiBasic (fuel + 1) (shown ++ rest) =
      (multiBasic fuel rest).map fun (text, rest) => (c :: text, rest) := by
  cases h with
  | plain hplain hslash =>
    have hline : lineEnd? (c :: rest) = none :=
      lineEnd?_eq_none (ne_of_isPlain hplain rfl) (ne_of_isPlain hplain rfl) rest
    rw [List.singleton_append] at hclosing ⊢
    rw [multiBasic, hclosing, hline]
    dsimp only
    rw [if_neg hslash, if_pos hplain]
  | escaped hread hline =>
    rename_i cs
    have hslash : lineEnd? ('\\' :: (cs ++ rest)) = none :=
      lineEnd?_eq_none (by decide) (by decide) _
    rw [List.cons_append] at hclosing ⊢
    rw [multiBasic, hclosing, hslash]
    dsimp only
    rw [if_pos rfl, hline, hread]
    rfl

end Shows

/-! ### The end of a text of several lines -/

section
variable {quote : Char}

theorem closing?_of_ne {c : Char} (h : c ≠ quote) (cs : List Char) :
    closing? quote (c :: cs) = none := by
  have hfront : (c :: cs).take 3 ≠ [quote, quote, quote] := fun heq => h (List.cons.inj heq).1
  rw [closing?, if_neg hfront]

theorem closing?_one {c : Char} (h : c ≠ quote) (cs : List Char) :
    closing? quote (quote :: c :: cs) = none := by
  have hfront : (quote :: c :: cs).take 3 ≠ [quote, quote, quote] := fun heq =>
    h (List.cons.inj (List.cons.inj heq).2).1
  rw [closing?, if_neg hfront]

theorem closing?_two {c : Char} (h : c ≠ quote) (cs : List Char) :
    closing? quote (quote :: quote :: c :: cs) = none := by
  have hfront : (quote :: quote :: c :: cs).take 3 ≠ [quote, quote, quote] := fun heq =>
    h (List.cons.inj (List.cons.inj (List.cons.inj heq).2).2).1
  rw [closing?, if_neg hfront]

/-- Up to two quotes before the closing ones belong to the text. -/
theorem closing?_end (hquote : quote ≠ '\n') (count : Nat) (h : count ≤ 2) (rest : List Char) :
    closing? quote (List.replicate count quote ++ quote :: quote :: quote :: '\n' :: rest) =
      some (List.replicate count quote, '\n' :: rest) := by
  have hfeed : '\n' ≠ quote := hquote.symm
  match count, h with
  | 0, _ => cases rest <;> simp [closing?, hfeed]
  | 1, _ => simp [closing?, hfeed]
  | 2, _ => simp [closing?]

end

theorem multiBasic_of_closing {cs : List Char} {result : List Char × List Char}
    (h : closing? '"' cs = some result) (fuel : Nat) : multiBasic (fuel + 1) cs = some result := by
  cases cs with
  | nil => cases h
  | cons c cs => rw [multiBasic, h]

theorem multiLiteral_of_closing {cs : List Char} {result : List Char × List Char}
    (h : closing? '\'' cs = some result) (fuel : Nat) :
    multiLiteral (fuel + 1) cs = some result := by
  cases cs with
  | nil => cases h
  | cons c cs => rw [multiLiteral, h]

/-! ### Bodies -/

theorem basicBody_cons (c : Char) (cs : List Char) :
    ∃ d ds, basicBody (c :: cs) = d :: ds ++ basicBody cs ∧ d ≠ '"' ∧ Shows c (d :: ds) := by
  by_cases hc : c = '"'
  · exact ⟨'\\', ['"'], by rw [basicBody, if_pos hc], by decide, hc ▸ shows_quote⟩
  · obtain ⟨d, ds, hhead, hd⟩ := (shows_textChar c).head_ne (textChar_ne_quote hc)
    exact ⟨d, ds, by rw [basicBody, if_neg hc, hhead], hd, hhead ▸ shows_textChar c⟩

theorem basic_basicBody {cs : List Char} {fuel : Nat} (h : (basicBody cs).length < fuel)
    (rest : List Char) : basic fuel (basicBody cs ++ '"' :: rest) = some (cs, rest) := by
  induction cs generalizing fuel with
  | nil =>
    obtain ⟨fuel, rfl⟩ := Nat.exists_eq_add_one_of_ne_zero (Nat.ne_of_gt h)
    rw [basicBody, List.nil_append, basic, if_pos rfl]
  | cons c cs ih =>
    obtain ⟨d, ds, hbody, hd, hshows⟩ := basicBody_cons c cs
    rw [hbody, List.length_append, List.length_cons] at h
    obtain ⟨fuel, rfl⟩ := Nat.exists_eq_add_one_of_ne_zero (n := fuel) (by omega)
    rw [hbody, List.append_assoc, hshows.basic_eq hd, ih (by omega)]
    rfl

/-- A character of a text of several lines other than a bare quote. -/
theorem multiBody_cons (quotes : Nat) {c : Char} (h : ¬(c = '"' ∧ quotes < 2)) (cs : List Char) :
    ∃ d ds, multiBody quotes (c :: cs) = d :: ds ++ multiBody 0 cs ∧ d ≠ '"' ∧
      (c = '\n' ∧ d = '\n' ∧ ds = [] ∨ Shows c (d :: ds)) := by
  by_cases hc : c = '"'
  · have hquotes : ¬quotes < 2 := fun hquotes => h ⟨hc, hquotes⟩
    exact ⟨'\\', ['"'], by rw [multiBody, if_pos hc, if_neg hquotes]; rfl, by decide,
      .inr (hc ▸ shows_quote)⟩
  · by_cases hfeed : c = '\n'
    · exact ⟨'\n', [], by rw [multiBody, if_neg hc, if_pos hfeed]; rfl, by decide,
        .inl ⟨hfeed, rfl, rfl⟩⟩
    · obtain ⟨d, ds, hhead, hd⟩ := (shows_textChar c).head_ne (textChar_ne_quote hc)
      refine ⟨d, ds, ?_, hd, .inr (hhead ▸ shows_textChar c)⟩
      rw [multiBody, if_neg hc, if_neg hfeed, hhead]

theorem multiBody_quote {quotes : Nat} (h : quotes < 2) (cs : List Char) :
    multiBody quotes ('"' :: cs) = '"' :: multiBody (quotes + 1) cs := by
  rw [multiBody, if_pos rfl, if_pos h]

/-- The text either ends here, or the closing quotes come later. -/
theorem closing?_multiBody (quotes : Nat) (cs rest : List Char) :
    closing? '"' (multiBody quotes cs ++ '"' :: '"' :: '"' :: '\n' :: rest) =
        some (cs, '\n' :: rest) ∨
      cs ≠ [] ∧ closing? '"' (multiBody quotes cs ++ '"' :: '"' :: '"' :: '\n' :: rest) = none := by
  have hend := closing?_end (show '"' ≠ '\n' by decide)
  match cs with
  | [] => exact .inl (hend 0 (by decide) rest)
  | c :: cs =>
    by_cases hfirst : c = '"' ∧ quotes < 2
    · obtain ⟨rfl, hquotes⟩ := hfirst
      rw [multiBody_quote hquotes]
      match cs with
      | [] => exact .inl (hend 1 (by decide) rest)
      | d :: cs =>
        by_cases hsecond : d = '"' ∧ quotes + 1 < 2
        · obtain ⟨rfl, hquotes⟩ := hsecond
          rw [multiBody_quote hquotes]
          match cs with
          | [] => exact .inl (hend 2 (by decide) rest)
          | e :: cs =>
            obtain ⟨f, fs, hbody, hf, _⟩ := multiBody_cons (quotes + 1 + 1)
              (fun hthird : e = '"' ∧ _ => by omega) cs
            rw [hbody]
            exact .inr ⟨List.cons_ne_nil _ _, closing?_two hf _⟩
        · obtain ⟨f, fs, hbody, hf, _⟩ := multiBody_cons (quotes + 1) hsecond cs
          rw [hbody]
          exact .inr ⟨List.cons_ne_nil _ _, closing?_one hf _⟩
    · obtain ⟨f, fs, hbody, hf, _⟩ := multiBody_cons quotes hfirst cs
      rw [hbody]
      exact .inr ⟨List.cons_ne_nil _ _, closing?_of_ne hf _⟩

theorem multiBasic_multiBody {cs : List Char} {quotes fuel : Nat}
    (h : (multiBody quotes cs).length < fuel) (rest : List Char) :
    multiBasic fuel (multiBody quotes cs ++ '"' :: '"' :: '"' :: '\n' :: rest) =
      some (cs, '\n' :: rest) := by
  induction cs generalizing quotes fuel with
  | nil =>
    obtain ⟨fuel, rfl⟩ := Nat.exists_eq_add_one_of_ne_zero (Nat.ne_of_gt h)
    exact multiBasic_of_closing (closing?_end (by decide) 0 (by decide) rest) fuel
  | cons c cs ih =>
    obtain ⟨fuel, rfl⟩ := Nat.exists_eq_add_one_of_ne_zero (n := fuel) (by omega)
    obtain hclosing | ⟨_, hclosing⟩ := closing?_multiBody quotes (c :: cs) rest
    · exact multiBasic_of_closing hclosing fuel
    by_cases hbare : c = '"' ∧ quotes < 2
    · obtain ⟨rfl, hquotes⟩ := hbare
      have hplain : Shows '"' ['"'] := .plain (by decide) (by decide)
      rw [multiBody_quote hquotes] at h hclosing ⊢
      rw [List.length_cons] at h
      rw [List.cons_append, ← List.singleton_append] at hclosing ⊢
      rw [hplain.multiBasic_eq hclosing, ih (Nat.lt_of_succ_lt_succ h)]
      rfl
    · obtain ⟨d, ds, hbody, _, hshows⟩ := multiBody_cons quotes hbare cs
      rw [hbody, List.length_append, List.length_cons] at h
      rw [hbody, List.append_assoc] at hclosing ⊢
      obtain ⟨rfl, rfl, rfl⟩ | hshows := hshows
      · rw [List.singleton_append] at hclosing ⊢
        rw [multiBasic, hclosing, lineEnd?]
        dsimp only
        rw [ih (by omega)]
        rfl
      · rw [hshows.multiBasic_eq hclosing, ih (by omega)]
        rfl

/-! ### Texts without escapes -/

theorem literal_plain {cs : List Char} (h : ∀ c ∈ cs, c ≠ '\'' ∧ isPlain c = true)
    (rest : List Char) : literal (cs ++ '\'' :: rest) = some (cs, rest) := by
  have hkeep : ∀ c ∈ cs, (decide (c ≠ '\'') && isPlain c) = true := by
    intro c hc
    rw [(h c hc).2, Bool.and_true, decide_eq_true (h c hc).1]
  have htext : (cs ++ '\'' :: rest).takeWhile (fun c => decide (c ≠ '\'') && isPlain c) = cs := by
    rw [List.takeWhile_append_of_pos hkeep, List.takeWhile_cons_of_neg (by decide), List.append_nil]
  rw [literal, htext, List.drop_left]
  rfl

theorem closing?_multiLiteral {cs : List Char} (h : hasRun '\'' 3 cs = false) (rest : List Char) :
    closing? '\'' (cs ++ '\'' :: '\'' :: '\'' :: '\n' :: rest) = some (cs, '\n' :: rest) ∨
      cs ≠ [] ∧ closing? '\'' (cs ++ '\'' :: '\'' :: '\'' :: '\n' :: rest) = none := by
  have hend := closing?_end (show '\'' ≠ '\n' by decide)
  match cs, h with
  | [], _ => exact .inl (hend 0 (by decide) rest)
  | c :: cs, h =>
    by_cases hfirst : c = '\''
    · rw [hfirst] at h ⊢
      match cs, h with
      | [], _ => exact .inl (hend 1 (by decide) rest)
      | d :: cs, h =>
        by_cases hsecond : d = '\''
        · rw [hsecond] at h ⊢
          match cs, h with
          | [], _ => exact .inl (hend 2 (by decide) rest)
          | e :: cs, h =>
            by_cases hthird : e = '\''
            · rw [hthird] at h
              cases h
            · exact .inr ⟨List.cons_ne_nil _ _, closing?_two hthird _⟩
        · exact .inr ⟨List.cons_ne_nil _ _, closing?_one hsecond _⟩
    · exact .inr ⟨List.cons_ne_nil _ _, closing?_of_ne hfirst _⟩

theorem multiLiteral_plain {cs : List Char} {fuel : Nat} (h : cs.length < fuel)
    (hplain : ∀ c ∈ cs, isPlain c = true ∨ c = '\n') (hrun : hasRun '\'' 3 cs = false)
    (rest : List Char) :
    multiLiteral fuel (cs ++ '\'' :: '\'' :: '\'' :: '\n' :: rest) = some (cs, '\n' :: rest) := by
  induction cs generalizing fuel with
  | nil =>
    obtain ⟨fuel, rfl⟩ := Nat.exists_eq_add_one_of_ne_zero (Nat.ne_of_gt h)
    exact multiLiteral_of_closing (closing?_end (by decide) 0 (by decide) rest) fuel
  | cons c cs ih =>
    obtain ⟨fuel, rfl⟩ := Nat.exists_eq_add_one_of_ne_zero (n := fuel) (by omega)
    obtain hclosing | ⟨_, hclosing⟩ := closing?_multiLiteral hrun rest
    · exact multiLiteral_of_closing hclosing fuel
    have hrest := ih (Nat.lt_of_succ_lt_succ h) (fun d hd => hplain d (List.mem_cons_of_mem c hd))
      (Bool.or_eq_false_iff.mp hrun).2
    rw [List.cons_append] at hclosing ⊢
    obtain hc | rfl := hplain c List.mem_cons_self
    · have hline := lineEnd?_eq_none (ne_of_isPlain (d := '\n') hc rfl)
        (ne_of_isPlain (d := '\r') hc rfl) (cs ++ '\'' :: '\'' :: '\'' :: '\n' :: rest)
      rw [multiLiteral, hclosing, hline]
      dsimp only
      rw [if_pos hc, hrest]
      rfl
    · rw [multiLiteral, hclosing, lineEnd?]
      dsimp only
      rw [hrest]
      rfl

/-! ### The form of a text -/

theorem isPlain_of_shown {cs : List Char} (h : cs.any isHidden = false) :
    ∀ c ∈ cs, isPlain c = true ∨ c = '\n' := by
  intro c hc
  have hshown : isHidden c = false := by
    cases hhidden : isHidden c with
    | false => rfl
    | true => rw [List.any_eq_true.mpr ⟨c, hc, hhidden⟩] at h; cases h
  rw [isHidden, Bool.and_eq_false_iff, Bool.not_eq_false', decide_eq_false_iff_not,
    Decidable.not_not] at hshown
  exact hshown

theorem of_formOf_literal {cs : List Char} (h : formOf cs = .literal) :
    ∀ c ∈ cs, c ≠ '\'' ∧ isPlain c = true := by
  have hform : (!cs.any isHidden && !cs.contains '\n' && !cs.contains '\'') = true := by
    unfold formOf at h
    dsimp only at h
    split at h
    · cases h
    · split at h
      · assumption
      · split at h
        · cases h
        · split at h
          · cases h
          · split at h <;> cases h
  simp only [Bool.and_eq_true, Bool.not_eq_true'] at hform
  obtain ⟨⟨hshown, hbroken⟩, hquote⟩ := hform
  intro c hc
  have hmem {d : Char} (hd : cs.contains d = false) : c ≠ d := by
    rintro rfl
    rw [List.contains_iff_mem.mpr hc] at hd
    cases hd
  exact ⟨hmem hquote, (isPlain_of_shown hshown c hc).resolve_right (hmem hbroken)⟩

theorem of_formOf_multiLiteral {cs : List Char} (h : formOf cs = .multiLiteral) :
    cs.any isHidden = false ∧ hasRun '\'' 3 cs = false := by
  have hform : (!cs.any isHidden && !hasRun '\'' 3 cs) = true := by
    unfold formOf at h
    dsimp only at h
    split at h
    · cases h
    · split at h
      · cases h
      · split at h
        · cases h
        · split at h
          · assumption
          · split at h <;> cases h
  rwa [Bool.and_eq_true, Bool.not_eq_true', Bool.not_eq_true'] at hform

/-! ### Texts -/

theorem text?_basic {cs : List Char} (h : ∀ rest, cs ≠ '"' :: '"' :: rest) :
    text? ('"' :: cs) = basic (cs.length + 1) cs := by
  unfold text?
  split
  · next heq => exact absurd (List.cons.inj heq).2 (h _)
  · next heq =>
    obtain rfl := (List.cons.inj heq).2
    rfl
  · next heq => cases heq
  · next heq => cases heq
  · next hother _ _ => exact absurd rfl (hother cs)

theorem text?_literal {cs : List Char} (h : ∀ rest, cs ≠ '\'' :: '\'' :: rest) :
    text? ('\'' :: cs) = literal cs := by
  unfold text?
  split
  · next heq => cases heq
  · next heq => cases heq
  · next heq => exact absurd (List.cons.inj heq).2 (h _)
  · next heq =>
    obtain rfl := (List.cons.inj heq).2
    rfl
  · next hother => exact absurd rfl (hother cs)

/-- The line end after the opening quotes is passed over, and where none is written the text does
not begin with one. -/
theorem withoutFirstLineEnd_opening (cs body : List Char)
    (h : '\n' ∉ cs → lineEnd? body = none) :
    withoutFirstLineEnd (openingLineEnd cs ++ body) = body := by
  unfold openingLineEnd
  split
  · rfl
  · next hbroken =>
    rw [List.contains_iff_mem] at hbroken
    rw [List.nil_append, withoutFirstLineEnd, h hbroken]
    rfl

theorem lineEnd?_multiBody {cs : List Char} (h : '\n' ∉ cs) (rest : List Char) :
    lineEnd? (multiBody 0 cs ++ '"' :: rest) = none := by
  cases cs with
  | nil => exact lineEnd?_eq_none (by decide) (by decide) rest
  | cons c cs =>
    have hfeed : c ≠ '\n' := fun hc => h (hc ▸ List.mem_cons_self)
    by_cases hc : c = '"'
    · rw [hc, multiBody_quote (by decide)]
      exact lineEnd?_eq_none (by decide) (by decide) _
    · obtain ⟨d, ds, hbody, _, hshows⟩ := multiBody_cons 0 (fun hq => hc hq.1) cs
      have hshows := hshows.resolve_left fun hfed => hfeed hfed.1
      rw [hbody]
      cases hshows with
      | plain hplain hslash =>
        exact lineEnd?_eq_none (ne_of_isPlain hplain rfl) (ne_of_isPlain hplain rfl) _
      | escaped hread hline => exact lineEnd?_eq_none (by decide) (by decide) _

theorem lineEnd?_literal {cs : List Char} (h : '\n' ∉ cs)
    (hplain : ∀ c ∈ cs, isPlain c = true ∨ c = '\n') (rest : List Char) :
    lineEnd? (cs ++ '\'' :: rest) = none := by
  cases cs with
  | nil => exact lineEnd?_eq_none (by decide) (by decide) rest
  | cons c cs =>
    have hfeed : c ≠ '\n' := fun hc => h (hc ▸ List.mem_cons_self)
    have hc := (hplain c List.mem_cons_self).resolve_right hfeed
    exact lineEnd?_eq_none hfeed (ne_of_isPlain hc rfl) _

theorem text?_basicBody (cs rest : List Char) :
    text? ('"' :: (basicBody cs ++ '"' :: '\n' :: rest)) = some (cs, '\n' :: rest) := by
  have hopen : ∀ after, basicBody cs ++ '"' :: '\n' :: rest ≠ '"' :: '"' :: after := by
    intro after heq
    cases cs with
    | nil => exact absurd (List.cons.inj (List.cons.inj heq).2).1 (by decide)
    | cons c cs =>
      obtain ⟨d, ds, hbody, hd, _⟩ := basicBody_cons c cs
      rw [hbody] at heq
      exact hd (List.cons.inj heq).1
  rw [text?_basic hopen]
  exact basic_basicBody (by rw [List.length_append]; omega) ('\n' :: rest)

theorem text?_plain {cs : List Char} (h : ∀ c ∈ cs, c ≠ '\'' ∧ isPlain c = true)
    (rest : List Char) :
    text? ('\'' :: (cs ++ '\'' :: '\n' :: rest)) = some (cs, '\n' :: rest) := by
  have hopen : ∀ after, cs ++ '\'' :: '\n' :: rest ≠ '\'' :: '\'' :: after := by
    intro after heq
    cases cs with
    | nil => exact absurd (List.cons.inj (List.cons.inj heq).2).1 (by decide)
    | cons c cs => exact (h c List.mem_cons_self).1 (List.cons.inj heq).1
  rw [text?_literal hopen, literal_plain h]

/-- A text that ends its line is read as it is. -/
theorem text?_textLiteral (cs rest : List Char) :
    text? (textLiteral cs ++ '\n' :: rest) = some (cs, '\n' :: rest) := by
  unfold textLiteral
  cases hform : formOf cs with
  | basic => simpa using text?_basicBody cs rest
  | literal => simpa using text?_plain (of_formOf_literal hform) rest
  | multiBasic =>
    have hopened := withoutFirstLineEnd_opening cs
      (multiBody 0 cs ++ '"' :: '"' :: '"' :: '\n' :: rest)
      fun hbroken => lineEnd?_multiBody hbroken _
    simp only [List.cons_append, List.nil_append, List.append_assoc, text?, hopened]
    apply multiBasic_multiBody
    simp only [List.length_cons, List.length_append]
    omega
  | multiLiteral =>
    obtain ⟨hshown, hrun⟩ := of_formOf_multiLiteral hform
    have hopened := withoutFirstLineEnd_opening cs (cs ++ '\'' :: '\'' :: '\'' :: '\n' :: rest)
      fun hbroken => lineEnd?_literal hbroken (isPlain_of_shown hshown) _
    simp only [List.cons_append, List.nil_append, List.append_assoc, text?, hopened]
    apply multiLiteral_plain _ (isPlain_of_shown hshown) hrun
    simp only [List.length_cons, List.length_append]
    omega

end BasRelief.Document.Toml
