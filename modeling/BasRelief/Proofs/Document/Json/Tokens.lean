import BasRelief.Proofs.Document.Json.Words

/-!
# JSON tokens read back

The scanner finds in what is written the tokens that it was written from. It is between tokens at
the start of every value, and may still be in a word at its end.
-/

namespace BasRelief.Document.Json

/-! ### Texts -/

/-- How a character of a text is kept: as itself or, if it is a control character, as its code. -/
inductive Keeps (c : Char) : Unit16 → Prop where
  | char : Keeps c (.char c)
  | code (h : c.toNat < 0x20) : Keeps c (.code c.toNat)

theorem joinUnits_code {n : Nat} (h : n < 0xD800) (us : List Unit16) :
    joinUnits (.code n :: us) = (joinUnits us).map (Char.ofNat n :: ·) := by
  have hhigh : isHighSurrogate n = false := by simp [isHighSurrogate]; omega
  have hlow : isLowSurrogate n = false := by simp [isLowSurrogate]; omega
  cases us with
  | nil => simp [joinUnits, hhigh, hlow]
  | cons u us =>
    cases u with
    | char c => simp [joinUnits, hhigh, hlow]
    | code low => rw [joinUnits, hhigh, hlow, if_neg Bool.false_ne_true, if_neg Bool.false_ne_true]

theorem Keeps.joinUnits_cons {c : Char} {u : Unit16} (h : Keeps c u) (us : List Unit16) :
    joinUnits (u :: us) = (joinUnits us).map (c :: ·) := by
  cases h with
  | char => rfl
  | code h => rw [joinUnits_code (by omega), Char.ofNat_toNat]

theorem hexValue?_control {n : Nat} (h : n < 32) :
    hexValue? (Text.hexDigit (n / 16)) = some (n / 16) ∧
      hexValue? (Text.hexDigit (n % 16)) = some (n % 16) := by
  revert n
  decide +kernel

theorem scan_controlEscape {n : Nat} (h : n < 0x20) (us : List Unit16) (ts : List Token) :
    (controlEscape n).foldlM scan ⟨.text us, ts⟩ = some ⟨.text (.code n :: us), ts⟩ := by
  obtain ⟨hhigh, hlow⟩ := hexValue?_control h
  have hsum : 16 * (n / 16) + n % 16 = n := by omega
  have hfirst : scan ⟨.code us 2 0, ts⟩ (Text.hexDigit (n / 16)) =
      some ⟨.code us 3 (n / 16), ts⟩ := by
    simp [scan, hhigh]
  have hsecond : scan ⟨.code us 3 (n / 16), ts⟩ (Text.hexDigit (n % 16)) =
      some ⟨.text (.code n :: us), ts⟩ := by
    simp [scan, hlow, hsum]
  show ((scan ⟨.code us 2 0, ts⟩ (Text.hexDigit (n / 16))).bind fun s =>
    (scan s (Text.hexDigit (n % 16))).bind some) = _
  rw [hfirst, Option.bind_some, hsecond, Option.bind_some]

theorem scan_textChar (c : Char) (us : List Unit16) (ts : List Token) :
    ∃ u, Keeps c u ∧ (textChar c).foldlM scan ⟨.text us, ts⟩ = some ⟨.text (u :: us), ts⟩ := by
  unfold textChar
  split
  all_goals try exact ⟨_, .char, rfl⟩
  next hquote hslash _ _ _ _ _ =>
    split
    · next hcontrol => exact ⟨_, .code hcontrol, scan_controlEscape hcontrol us ts⟩
    · next hcontrol =>
      refine ⟨_, .char, ?_⟩
      have hscan : scan ⟨.text us, ts⟩ c = some ⟨.text (.char c :: us), ts⟩ := by
        unfold scan
        dsimp only
        rw [if_neg hquote, if_neg hslash, if_neg hcontrol]
      rw [List.foldlM_cons, hscan]
      rfl

theorem scan_text (cs : List Char) (us : List Unit16) (ts : List Token) :
    ∃ vs, joinUnits vs = some cs ∧
      (cs.flatMap textChar).foldlM scan ⟨.text us, ts⟩ = some ⟨.text (vs.reverse ++ us), ts⟩ := by
  induction cs generalizing us with
  | nil => exact ⟨[], rfl, rfl⟩
  | cons c cs ih =>
    obtain ⟨u, hkeeps, hchar⟩ := scan_textChar c us ts
    obtain ⟨vs, hjoin, hrest⟩ := ih (u :: us)
    refine ⟨u :: vs, by rw [hkeeps.joinUnits_cons, hjoin]; rfl, ?_⟩
    rw [List.flatMap_cons, List.foldlM_append, hchar]
    show (cs.flatMap textChar).foldlM scan ⟨.text (u :: us), ts⟩ = _
    rw [hrest, List.reverse_cons, List.append_assoc, List.singleton_append]

theorem scan_textLiteral (s : String) (ts : List Token) :
    (textLiteral s).foldlM scan ⟨.between, ts⟩ = some ⟨.between, .text (some s) :: ts⟩ := by
  obtain ⟨vs, hjoin, hscan⟩ := scan_text s.toList [] ts
  have htoken : textToken (vs.reverse ++ []) = .text (some s) := by
    rw [textToken, List.append_nil, List.reverse_reverse, hjoin, Option.map_some,
      String.ofList_toList]
  unfold textLiteral
  rw [List.cons_append, List.foldlM_cons]
  show (s.toList.flatMap textChar ++ ['"']).foldlM scan ⟨.text [], ts⟩ = _
  rw [List.foldlM_append, hscan]
  show some (⟨.between, textToken (vs.reverse ++ []) :: ts⟩ : Scanner) = _
  rw [htoken]

/-! ### Ends of words -/

/-- The tokens when a word that is still open ends here. -/
def Scanner.flushed? (s : Scanner) : Option (List Token) :=
  match s.mode with
  | .between => some s.tokens
  | .word cs => some (.word cs.reverse :: s.tokens)
  | _ => none

theorem Scanner.finish?_of_flushed {s : Scanner} {ts : List Token} (h : s.flushed? = some ts) :
    s.finish? = some ts.reverse := by
  obtain ⟨mode, tokens⟩ := s
  cases mode with
  | between | word =>
    obtain rfl := Option.some.inj h
    rfl
  | _ => cases h

theorem scan_of_flushed {s : Scanner} {ts : List Token} (h : s.flushed? = some ts) {c : Char}
    (hc : endsWord c = true) : scan s c = some (scanOutside ts c) := by
  obtain ⟨mode, tokens⟩ := s
  cases mode with
  | between =>
    obtain rfl := Option.some.inj h
    rfl
  | word cs =>
    obtain rfl := Option.some.inj h
    exact if_pos hc
  | _ => cases h

theorem scan_blanks {bs : List Char} (h : ∀ c ∈ bs, isBlank c = true) (ts : List Token) :
    bs.foldlM scan ⟨.between, ts⟩ = some ⟨.between, ts⟩ := by
  induction bs with
  | nil => rfl
  | cons c bs ih =>
    have hc : scan ⟨.between, ts⟩ c = some ⟨.between, ts⟩ := by
      show some (scanOutside ts c) = _
      rw [scanOutside, if_pos (h c List.mem_cons_self)]
    rw [List.foldlM_cons, hc]
    exact ih fun d hd => h d (List.mem_cons_of_mem c hd)

theorem scan_blanks_of_flushed {bs : List Char} (h : ∀ c ∈ bs, isBlank c = true) {s : Scanner}
    {ts : List Token} (hs : s.flushed? = some ts) :
    ∃ s', bs.foldlM scan s = some s' ∧ s'.flushed? = some ts := by
  cases bs with
  | nil => exact ⟨s, rfl, hs⟩
  | cons c bs =>
    have hblank := h c List.mem_cons_self
    have hc : scan s c = some ⟨.between, ts⟩ := by
      rw [scan_of_flushed hs (by rw [endsWord, hblank, Bool.true_or, Bool.true_or]), scanOutside,
        if_pos hblank]
    refine ⟨⟨.between, ts⟩, ?_, rfl⟩
    rw [List.foldlM_cons, hc]
    exact scan_blanks (fun d hd => h d (List.mem_cons_of_mem c hd)) ts

theorem scan_punctuation {s : Scanner} {ts : List Token} (h : s.flushed? = some ts) {c : Char}
    {t : Token} (hc : punctuation? c = some t) : scan s c = some ⟨.between, t :: ts⟩ := by
  have hblank : isBlank c = false := by
    cases hblank : isBlank c with
    | false => rfl
    | true =>
      simp only [isBlank, Bool.or_eq_true, decide_eq_true_eq] at hblank
      obtain ((rfl | rfl) | rfl) | rfl := hblank
      all_goals cases hc
  have hquote : c ≠ '"' := by
    rintro rfl
    cases hc
  have hends : endsWord c = true := by rw [endsWord, hc, Option.isSome_some, Bool.or_true]
  rw [scan_of_flushed h hends, scanOutside, hblank, if_neg Bool.false_ne_true, if_neg hquote, hc]

theorem scan_in_word {cs : List Char} (h : ∀ c ∈ cs, endsWord c = false) (front : List Char)
    (ts : List Token) :
    cs.foldlM scan ⟨.word front, ts⟩ = some ⟨.word (cs.reverse ++ front), ts⟩ := by
  induction cs generalizing front with
  | nil => rfl
  | cons c cs ih =>
    have hc : scan ⟨.word front, ts⟩ c = some ⟨.word (c :: front), ts⟩ := by
      unfold scan
      dsimp only
      rw [h c List.mem_cons_self, if_neg Bool.false_ne_true]
    rw [List.foldlM_cons, hc, List.reverse_cons, List.append_assoc]
    exact ih (fun d hd => h d (List.mem_cons_of_mem c hd)) (c :: front)

/-! ### What is written -/

/-- From between tokens, the scanner finds these tokens in a text. -/
def Scans (cs : List Char) (found : List Token) : Prop :=
  ∀ ts, ∃ s, cs.foldlM scan ⟨.between, ts⟩ = some s ∧ s.flushed? = some (found.reverse ++ ts)

namespace Scans

theorem word {cs : List Char} (h : IsWord cs) : Scans cs [.word cs] := by
  intro ts
  obtain ⟨c, rest, rfl⟩ := List.exists_cons_of_ne_nil h.ne_nil
  have hc := h.inside c List.mem_cons_self
  rw [endsWord, Bool.or_eq_false_iff, Bool.or_eq_false_iff, decide_eq_false_iff_not,
    Option.isSome_eq_false_iff, Option.isNone_iff_eq_none] at hc
  obtain ⟨⟨hblank, hquote⟩, hpunctuation⟩ := hc
  have hfirst : scan ⟨.between, ts⟩ c = some ⟨.word [c], ts⟩ := by
    show some (scanOutside ts c) = _
    rw [scanOutside, hblank, if_neg Bool.false_ne_true, if_neg hquote, hpunctuation]
  refine ⟨⟨.word (rest.reverse ++ [c]), ts⟩, ?_, ?_⟩
  · rw [List.foldlM_cons, hfirst]
    exact scan_in_word (fun d hd => h.inside d (List.mem_cons_of_mem c hd)) [c] ts
  · show some (.word (rest.reverse ++ [c]).reverse :: ts) = some ([.word (c :: rest)].reverse ++ ts)
    rw [List.reverse_append, List.reverse_reverse]
    rfl

theorem text (s : String) : Scans (textLiteral s) [.text (some s)] := fun ts =>
  ⟨_, scan_textLiteral s ts, rfl⟩

end Scans

/-- A layout of blanks, with a colon after a key. -/
structure Layout.IsBlank (layout : Layout) : Prop where
  gap : ∀ depth, ∀ c ∈ layout.gap depth, Json.isBlank c = true
  afterKey : ∃ bs, layout.afterKey = ':' :: bs ∧ ∀ c ∈ bs, Json.isBlank c = true

theorem Layout.indented_isBlank : Layout.indented.IsBlank where
  gap := by
    intro depth c hc
    obtain rfl | hc := List.mem_cons.mp hc
    · decide
    · rw [(List.mem_replicate.mp hc).2]
      decide
  afterKey := ⟨[' '], rfl, fun c hc => by rw [List.mem_singleton.mp hc]; decide⟩

/-- Tokens with a separator between. -/
def separated : List (List Token) → List Token
  | [] => []
  | item :: rest => item ++ rest.flatMap fun item => .comma :: item

namespace Scans
variable {layout : Layout} (h : layout.IsBlank)
include h

theorem entry {key : String} {cs : List Char} {found : List Token} (hvalue : Scans cs found) :
    Scans (textLiteral key ++ layout.afterKey ++ cs) (.text (some key) :: .colon :: found) := by
  intro ts
  obtain ⟨bs, hkey, hblank⟩ := h.afterKey
  obtain ⟨s, hscan, hs⟩ := hvalue (.colon :: .text (some key) :: ts)
  have hcolon : scan ⟨.between, .text (some key) :: ts⟩ ':' =
      some ⟨.between, .colon :: .text (some key) :: ts⟩ := rfl
  refine ⟨s, ?_, ?_⟩
  · rw [hkey, List.append_assoc, List.foldlM_append, scan_textLiteral]
    show ((':' :: bs) ++ cs).foldlM scan ⟨.between, .text (some key) :: ts⟩ = _
    rw [List.cons_append, List.foldlM_cons, hcolon]
    show (bs ++ cs).foldlM scan ⟨.between, .colon :: .text (some key) :: ts⟩ = _
    rw [List.foldlM_append, scan_blanks hblank]
    exact hscan
  · simpa using hs

theorem rest (depth : Nat) {items : List (List Char)} {found : List (List Token)}
    (hitems : List.Forall₂ Scans items found) {s : Scanner} {ts : List Token}
    (hs : s.flushed? = some ts) :
    ∃ s', (items.flatMap fun item => ',' :: layout.gap depth ++ item).foldlM scan s = some s' ∧
      s'.flushed? = some ((found.flatMap fun item => .comma :: item).reverse ++ ts) := by
  induction hitems generalizing s ts with
  | nil => exact ⟨s, rfl, hs⟩
  | cons hitem _ ih =>
    obtain ⟨s', hscan, hs'⟩ := hitem (.comma :: ts)
    obtain ⟨s'', hrest, hs''⟩ := ih hs'
    refine ⟨s'', ?_, ?_⟩
    · rw [List.flatMap_cons, List.cons_append, List.cons_append, List.append_assoc,
        List.foldlM_cons, scan_punctuation hs (c := ',') rfl]
      show List.foldlM scan (⟨.between, .comma :: ts⟩ : Scanner) _ = _
      rw [List.foldlM_append, scan_blanks (h.gap depth)]
      show List.foldlM scan (⟨.between, .comma :: ts⟩ : Scanner) _ = _
      rw [List.foldlM_append, hscan]
      exact hrest
    · rw [hs'', List.flatMap_cons]
      simp

theorem bracketed {depth : Nat} {opening closing : Char} {first last : Token}
    (hfirst : punctuation? opening = some first) (hlast : punctuation? closing = some last)
    {items : List (List Char)} {found : List (List Token)}
    (hitems : List.Forall₂ Scans items found) :
    Scans (Json.bracketed layout depth opening closing items)
      (first :: separated found ++ [last]) := by
  intro ts
  cases hitems with
  | nil =>
    refine ⟨⟨.between, last :: first :: ts⟩, ?_, rfl⟩
    show List.foldlM scan (⟨.between, ts⟩ : Scanner) [opening, closing] = _
    rw [List.foldlM_cons, scan_punctuation (s := ⟨.between, ts⟩) rfl hfirst]
    show List.foldlM scan (⟨.between, first :: ts⟩ : Scanner) [closing] = _
    rw [List.foldlM_cons, scan_punctuation (s := ⟨.between, first :: ts⟩) rfl hlast]
    rfl
  | cons hitem hrest =>
    obtain ⟨s₁, hscan, hs₁⟩ := hitem (first :: ts)
    obtain ⟨s₂, hmore, hs₂⟩ := rest h (depth + 1) hrest hs₁
    obtain ⟨s₃, hgap, hs₃⟩ := scan_blanks_of_flushed (h.gap depth) hs₂
    refine ⟨_, Eq.trans ?_ (scan_punctuation hs₃ hlast), ?_⟩
    · rw [Json.bracketed, List.append_assoc, List.cons_append, List.foldlM_cons,
        scan_punctuation (s := ⟨.between, ts⟩) rfl hfirst]
      show List.foldlM scan (⟨.between, first :: ts⟩ : Scanner) _ = _
      rw [List.append_assoc, List.append_assoc, List.foldlM_append,
        scan_blanks (h.gap (depth + 1))]
      show List.foldlM scan (⟨.between, first :: ts⟩ : Scanner) _ = _
      rw [List.foldlM_append, hscan]
      show List.foldlM scan s₁ _ = _
      rw [List.foldlM_append, hmore]
      show List.foldlM scan s₂ _ = _
      rw [List.foldlM_append, hgap]
      show List.foldlM scan s₃ [closing] = _
      rw [List.foldlM_cons]
      exact bind_pure (scan s₃ closing)
    · simp [Scanner.flushed?, separated]

end Scans

end BasRelief.Document.Json
