import BasRelief.Proofs.Analysis.Silence
import BasRelief.Proofs.Gcode.WordGrammar
import Mathlib.Data.List.Pairwise

/-!
# Lines made of parts

No word goes on across a blank, and a blank belongs to no word. So a line says what the parts
between its blanks say, one after the other: the first G word of them all, the later values over
the earlier ones, and every warning. Parts that set different axes may change places.
-/

namespace BasRelief

/-! ### Blanks -/

namespace Text

def blankNumbers : List Nat :=
  [0x09, 0x0A, 0x0B, 0x0C, 0x0D, 0x20, 0x85, 0xA0, 0x1680, 0x2000, 0x2001, 0x2002, 0x2003, 0x2004,
   0x2005, 0x2006, 0x2007, 0x2008, 0x2009, 0x200A, 0x2028, 0x2029, 0x202F, 0x205F, 0x3000]

theorem mem_blankNumbers {c : Char} (h : isBlank c = true) : c.toNat ∈ blankNumbers := by
  simp only [isBlank, Bool.or_eq_true, Bool.and_eq_true, decide_eq_true_eq] at h
  simp only [blankNumbers, List.mem_cons, List.not_mem_nil, or_false]
  omega

/-- What sees neither a blank in front of a text nor one at its end sees no trimming. -/
theorem trim_invariant {β : Type} {f : List Char → β}
    (hfront : ∀ c cs, isBlank c = true → f (c :: cs) = f cs)
    (hback : ∀ cs c, isBlank c = true → f (cs ++ [c]) = f cs) (cs : List Char) :
    f (trim cs) = f cs := by
  have hdrop (ds : List Char) : f (ds.dropWhile isBlank) = f ds := by
    induction ds with
    | nil => rfl
    | cons d ds ih =>
      by_cases hd : isBlank d = true
      · rw [List.dropWhile_cons_of_pos hd, ih, hfront d ds hd]
      · rw [List.dropWhile_cons_of_neg hd]
  have hend (ds : List Char) : f (ds.dropWhile isBlank).reverse = f ds.reverse := by
    induction ds with
    | nil => rfl
    | cons d ds ih =>
      by_cases hd : isBlank d = true
      · rw [List.dropWhile_cons_of_pos hd, ih, List.reverse_cons, hback ds.reverse d hd]
      · rw [List.dropWhile_cons_of_neg hd]
  rw [trim, trimEnd, hend, List.reverse_reverse, hdrop]

end Text

namespace Gcode

theorem forall_isBlank {p : Char → Prop} (h : ∀ n ∈ Text.blankNumbers, p (Char.ofNat n)) {c : Char}
    (hc : Text.isBlank c = true) : p c :=
  forall_numbered h (Text.mem_blankNumbers hc)

theorem endsValue_of_isBlank {c : Char} (h : Text.isBlank c = true) : EndsValue c where
  valueChar := forall_isBlank (p := fun c => isValueChar c = false) (by decide) h
  plus := forall_isBlank (p := fun c => c ≠ '+') (by decide) h
  minus := forall_isBlank (p := fun c => c ≠ '-') (by decide) h

theorem ofLetter?_of_isBlank {c : Char} (h : Text.isBlank c = true) : Axis.ofLetter? c = none :=
  forall_isBlank (p := fun c => Axis.ofLetter? c = none) (by decide) h

theorem not_g_of_isBlank {c : Char} (h : Text.isBlank c = true) : c.toUpper ≠ 'G' :=
  forall_isBlank (p := fun c => c.toUpper ≠ 'G') (by decide) h

theorem isScriptDigit_of_isBlank {c : Char} (h : Text.isBlank c = true) :
    Text.isScriptDigit c = false :=
  forall_isBlank (p := fun c => Text.isScriptDigit c = false) (by decide) h

theorem occurrences_cons_blank {c : Char} (h : Text.isBlank c = true) (cs : List Char) :
    occurrences (c :: cs) = occurrences cs :=
  occurrences_cons_of_none (ofLetter?_of_isBlank h) cs

theorem gDigits?_cons_blank {c : Char} (h : Text.isBlank c = true) (cs : List Char) :
    gDigits? (c :: cs) = gDigits? cs := by
  rw [gDigits?]
  exact if_neg fun hg => not_g_of_isBlank h hg.1

/-- The axis words on both sides of a blank are those of the two texts. -/
theorem occurrences_append_blank {c : Char} (h : Text.isBlank c = true) (a b : List Char) :
    occurrences (a ++ c :: b) = occurrences a ++ occurrences b := by
  rw [occurrences_append_stop (endsValue_of_isBlank h), occurrences_cons_blank h]

theorem gDigits?_append_blank {c : Char} (h : Text.isBlank c = true) (a b : List Char) :
    gDigits? (a ++ c :: b) = (gDigits? a).or (gDigits? b) := by
  rw [gDigits?_append_stop (isScriptDigit_of_isBlank h), gDigits?_cons_blank h]

theorem gDigits?_eq_none_iff (cs : List Char) : gDigits? cs = none ↔ ∀ i ds, ¬GStands cs i ds := by
  constructor
  · exact not_gStands_of_gDigits?
  · intro h
    cases hfound : gDigits? cs with
    | none => rfl
    | some ds =>
      rcases firstG_of_gDigits? hfound with ⟨i, hfirst⟩
      exact absurd hfirst.stands (h i ds)

end Gcode

/-! ### Values over values -/

namespace Words
variable {α : Type}

/-- Words that set different axes. -/
def Apart (v w : Words α) : Prop := ∀ a, v.get a = none ∨ w.get a = none

theorem Apart.overlay_comm {u v : Words α} (h : u.Apart v) (w : Words α) :
    u.overlay (v.overlay w) = v.overlay (u.overlay w) := by
  apply ext_get
  intro a
  simp only [get_overlay]
  rcases h a with hu | hv
  · simp [hu]
  · simp [hv]

end Words

namespace Gcode
variable {α : Type} [Scalar α]

theorem Occurrence.assign_overlay (o : Occurrence) (v w : Words α) :
    assign (v.overlay w) o = (assign v o).overlay w := by
  unfold assign
  cases (o.value? : Option α) with
  | none => rfl
  | some c => exact Words.set_overlay v w o.axis c

theorem foldl_assign (os : List Occurrence) (w : Words α) :
    os.foldl Occurrence.assign w = (os.foldl Occurrence.assign {}).overlay w := by
  induction os using List.reverseRecOn with
  | nil => rfl
  | append_singleton os o ih =>
    simp only [List.foldl_append, List.foldl_cons, List.foldl_nil]
    rw [ih, Occurrence.assign_overlay]

/-! ### Two parts -/

/-- The token of two texts with a blank between them, told by the tokens of the two. -/
structure Token.InTurn (t : Token α) (a : List Char) (first second : Token α) : Prop where
  words : t.words = second.words.overlay first.words
  warnings : t.warnings = first.warnings ++ second.warnings
  gWord : (∃ i ds, GStands a i ds) → t.gNumber = first.gNumber ∧ t.motion = first.motion
  noGWord : (∀ i ds, ¬GStands a i ds) → t.gNumber = second.gNumber ∧ t.motion = second.motion

/-- A text without comments and not of blanks alone. -/
structure IsPart (a : List Char) : Prop where
  clean : ∀ c ∈ a, startsComment c = false
  visible : ∃ c ∈ a, Text.isBlank c = false

theorem isPart_iff (a : List Char) : IsPart a ↔
    a.all (startsComment · = false) = true ∧ a.any (Text.isBlank · = false) = true := by
  simp only [List.all_eq_true, List.any_eq_true, decide_eq_true_eq]
  exact ⟨fun h => ⟨h.clean, h.visible⟩, fun h => ⟨h.1, h.2⟩⟩

instance (a : List Char) : Decidable (IsPart a) := decidable_of_iff _ (isPart_iff a).symm

namespace Token

theorem ofText_cons_blank {c : Char} (h : Text.isBlank c = true) (number : Nat) (cs : List Char) :
    (ofText number (c :: cs) : Token α) = ofText number cs := by
  simp only [ofText, gDigits?_cons_blank h, occurrences_cons_blank h]

theorem ofText_append_blank {c : Char} (h : Text.isBlank c = true) (number : Nat)
    (cs : List Char) : (ofText number (cs ++ [c]) : Token α) = ofText number cs := by
  have hfound : occurrences (cs ++ [c]) = occurrences cs := by
    rw [occurrences_append_blank h, occurrences, List.append_nil]
  have hdigits : gDigits? (cs ++ [c]) = gDigits? cs := by
    rw [gDigits?_append_blank h, gDigits?, Option.or_none]
  simp only [ofText, hdigits, hfound]

theorem ofText_trim (number : Nat) (cs : List Char) :
    (ofText number (Text.trim cs) : Token α) = ofText number cs :=
  Text.trim_invariant (fun _ ds h => ofText_cons_blank h number ds)
    (fun ds _ h => ofText_append_blank h number ds) cs

theorem read?_of_clean {l : List Char} (h : ∀ c ∈ l, startsComment c = false) (number : Nat) :
    (read? number l : Option (Token α)) =
      if l.all Text.isBlank then none else some (ofText number l) := by
  rw [read?, stripComment_of_clean h]
  simp only [Text.trim_eq_nil_iff, ofText_trim, List.all_eq_true]

theorem inTurn_ofText (number : Nat) (a b : List Char) :
    (ofText number (a ++ ' ' :: b) : Token α).InTurn a (ofText number a) (ofText number b) where
  words := by
    simp only [ofText]
    rw [occurrences_append_blank (by decide), List.foldl_append, foldl_assign]
  warnings := by
    simp only [ofText]
    rw [occurrences_append_blank (by decide), List.filterMap_append]
  gWord := by
    intro hg
    have hsome : gDigits? a ≠ none := by
      rw [Ne, gDigits?_eq_none_iff]
      intro hnone
      rcases hg with ⟨i, ds, hstands⟩
      exact hnone i ds hstands
    rcases Option.ne_none_iff_exists'.mp hsome with ⟨ds, hds⟩
    simp only [ofText, gDigits?_append_blank (c := ' ') (by decide), hds, Option.some_or, and_self]
  noGWord := by
    intro hg
    have hnone := (gDigits?_eq_none_iff a).mpr hg
    simp only [ofText, gDigits?_append_blank (c := ' ') (by decide), hnone, Option.none_or, and_self]

end Token

theorem IsPart.read? {a : List Char} (h : IsPart a) (number : Nat) :
    Token.read? number a = some (Token.ofText number a : Token α) := by
  rcases h.visible with ⟨c, hc, hvisible⟩
  have hnot : ¬a.all Text.isBlank = true := by
    intro hall
    simp [List.all_eq_true.mp hall c hc] at hvisible
  rw [Token.read?_of_clean h.clean, if_neg hnot]

theorem IsPart.append_blank {a b : List Char} (ha : IsPart a) (hb : IsPart b) :
    IsPart (a ++ ' ' :: b) where
  clean := by
    simp only [List.forall_mem_append, List.forall_mem_cons]
    exact ⟨ha.clean, by decide, hb.clean⟩
  visible := by
    rcases ha.visible with ⟨c, hc, hvisible⟩
    exact ⟨c, List.mem_append_left _ hc, hvisible⟩

/-! ### Any number of parts -/

/-- Somewhere in the text stands a well-formed word of the axis. -/
def Sets (p : List Char) (a : Axis) : Prop := ∃ i w, WordStands p i w ∧ w.axis = a ∧ w.WellFormed

theorem get_ofText_eq_none_iff (number : Nat) (p : List Char) (a : Axis) :
    (Token.ofText number p : Token α).words.get a = none ↔ ¬Sets p a := by
  rcases exists_spells_ofText (α := α) number p with ⟨found, hspells⟩
  rw [hspells.value a, Option.map_eq_none_iff, List.getLast?_eq_none_iff, List.filter_eq_nil_iff]
  constructor
  · rintro h ⟨i, w, hstands, haxis, hform⟩
    have hfound := (hspells.places.mem_iff i w).mpr hstands
    exact h w (List.mem_map.mpr ⟨(i, w), hfound, rfl⟩) (by simp [haxis, hform])
  · intro h w hw hset
    rcases List.mem_map.mp hw with ⟨⟨i, v⟩, hfound, rfl⟩
    have hstands := (hspells.places.mem_iff i v).mp hfound
    have hboth : v.axis = a ∧ v.WellFormed := by simpa using hset
    exact h ⟨i, v, hstands, hboth.1, hboth.2⟩

instance (p : List Char) (a : Axis) : Decidable (Sets p a) :=
  decidable_of_iff (¬(Token.ofText 0 p : Token Rat).words.get a = none)
    ((get_ofText_eq_none_iff 0 p a).not.trans not_not)

theorem occurrences_intercalate (parts : List (List Char)) :
    occurrences ([' '].intercalate parts) = parts.flatMap occurrences := by
  induction parts with
  | nil => rfl
  | cons p rest ih =>
    cases rest with
    | nil => rw [List.intercalate_singleton, List.flatMap_singleton]
    | cons q rest =>
      have hsplit : p ++ [' '] ++ [' '].intercalate (q :: rest) =
          p ++ ' ' :: [' '].intercalate (q :: rest) := by simp
      rw [List.intercalate_cons_cons, hsplit, occurrences_append_blank (by decide), ih,
        List.flatMap_cons (x := p)]

theorem forall_mem_intercalate {q : Char → Prop} (hq : q ' ') (parts : List (List Char)) :
    (∀ c ∈ [' '].intercalate parts, q c) ↔ ∀ p ∈ parts, ∀ c ∈ p, q c := by
  induction parts with
  | nil => simp
  | cons p rest ih =>
    cases rest with
    | nil => simp
    | cons r rest =>
      rw [List.intercalate_cons_cons, List.forall_mem_append, List.forall_mem_append, ih,
        List.forall_mem_singleton, List.forall_mem_cons (a := p)]
      simp only [hq, and_true]

theorem words_intercalate (number : Nat) (parts : List (List Char)) :
    (Token.ofText number ([' '].intercalate parts) : Token α).words =
      parts.foldl (fun w p => (Token.ofText number p).words.overlay w) {} := by
  have hpart (w : Words α) (p : List Char) :
      (occurrences p).foldl Occurrence.assign w = (Token.ofText number p).words.overlay w :=
    foldl_assign (occurrences p) w
  have hwords : (Token.ofText number ([' '].intercalate parts) : Token α).words =
      (occurrences ([' '].intercalate parts)).foldl Occurrence.assign {} := rfl
  rw [hwords, occurrences_intercalate, List.foldl_flatMap]
  simp only [hpart]

/-- Parts that set different axes give the same words in any order. -/
theorem words_intercalate_perm (number : Nat) {parts parts' : List (List Char)}
    (hperm : parts.Perm parts')
    (hapart : ∀ a, parts.Pairwise fun p q => Sets p a → ¬Sets q a) :
    (Token.ofText number ([' '].intercalate parts) : Token α).words =
      (Token.ofText number ([' '].intercalate parts')).words := by
  rw [words_intercalate, words_intercalate]
  apply hperm.foldl_eq'
  intro p hp q hq w
  by_cases heq : p = q
  · rw [heq]
  · apply Words.Apart.overlay_comm
    intro a
    have hsymm : Std.Symm fun p q : List Char => Sets p a → ¬Sets q a :=
      ⟨fun p q h hq hp => h hp hq⟩
    have hdisjoint := (hapart a).forall hp hq heq
    rw [get_ofText_eq_none_iff, get_ofText_eq_none_iff]
    by_cases hset : Sets q a
    · exact .inr fun hother => hdisjoint hother hset
    · exact .inl hset

/-- A line of two parts has the token of both in turn, and parts that set different axes give the
same words in any order. -/
theorem read?_parts (number : Nat) :
    (∀ {a b : List Char}, IsPart a → IsPart b → ∃ first second t : Token α,
      Token.read? number a = some first ∧ Token.read? number b = some second ∧
      Token.read? number (a ++ ' ' :: b) = some t ∧ t.InTurn a first second) ∧
    ∀ {parts parts' : List (List Char)}, parts.Perm parts' →
      (∀ p ∈ parts, ∀ c ∈ p, startsComment c = false) →
      (∀ a, parts.Pairwise fun p q => Sets p a → ¬Sets q a) →
      (Token.read? number ([' '].intercalate parts) : Option (Token α)).map Token.words =
        (Token.read? number ([' '].intercalate parts')).map Token.words := by
  constructor
  · intro a b ha hb
    exact ⟨_, _, _, ha.read? number, hb.read? number, (ha.append_blank hb).read? number,
      Token.inTurn_ofText number a b⟩
  · intro parts parts' hperm hclean hapart
    have hclean' : ∀ p ∈ parts', ∀ c ∈ p, startsComment c = false :=
      fun p hp => hclean p (hperm.mem_iff.mpr hp)
    have hblanks (ps : List (List Char)) :=
      forall_mem_intercalate (q := fun c => Text.isBlank c = true) (by decide) ps
    have hblank : ([' '].intercalate parts).all Text.isBlank =
        ([' '].intercalate parts').all Text.isBlank := by
      rw [Bool.eq_iff_iff]
      simp only [List.all_eq_true, hblanks, hperm.mem_iff]
    have hcleans (ps : List (List Char)) :=
      forall_mem_intercalate (q := fun c => startsComment c = false) (by decide) ps
    rw [Token.read?_of_clean ((hcleans parts).mpr hclean),
      Token.read?_of_clean ((hcleans parts').mpr hclean'), hblank]
    split
    · rfl
    · exact congrArg some (words_intercalate_perm number hperm hapart)

theorem shuffledLine_read :
    (∃ first second t : Token Rat, Token.read? 3 "X1 Y2. z..".toList = some first ∧
      Token.read? 3 " g0 x-.5 G1".toList = some second ∧
      Token.read? 3 "X1 Y2. z..  g0 x-.5 G1".toList = some t ∧
      t.InTurn "X1 Y2. z..".toList first second) ∧
    (Token.read? 3 "F80 y-2 g1 X1.5".toList : Option (Token Rat)).map Token.words =
      (Token.read? 3 "g1 X1.5 F80 y-2".toList).map Token.words := by
  have hread := read?_parts (α := Rat) 3
  have hfirst : IsPart "X1 Y2. z..".toList := by decide +kernel
  have hsecond : IsPart " g0 x-.5 G1".toList := by decide +kernel
  refine ⟨hread.1 hfirst hsecond, ?_⟩
  have hperm : ["F80".toList, "y-2".toList, "g1".toList, "X1.5".toList].Perm
      ["g1".toList, "X1.5".toList, "F80".toList, "y-2".toList] := by decide +kernel
  have hparts : ∀ p ∈ ["F80".toList, "y-2".toList, "g1".toList, "X1.5".toList], IsPart p := by
    decide +kernel
  refine hread.2 hperm (fun p hp => (hparts p hp).clean) ?_
  intro a
  cases a <;> decide +kernel

end Gcode
end BasRelief
