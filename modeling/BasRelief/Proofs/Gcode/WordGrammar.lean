import BasRelief.Proofs.Decimal.UnsignedText
import BasRelief.Proofs.Gcode.LineWords
import Mathlib.Algebra.Group.Nat.Defs
import Mathlib.Data.List.Induction
import Mathlib.Data.List.Nodup

/-!
# The grammar of a line

Where the words of a line stand is said of its text alone: a letter at a place, and all of the
characters of a kind that come right after it. The token of a line says what the leftmost G word
and the axis words at their places say, and nothing else.
-/

namespace BasRelief.Gcode
open Decimal Numeral

/-! ### Letters and runs -/

theorem toUpper_eq_iff {c upper : Char} (h : 'A'.val ≤ upper.val ∧ upper.val ≤ 'Z'.val) :
    c.toUpper = upper ↔ c = upper ∨ c = upper.toLower := by
  have hlower : upper.toLower.val = upper.val + 32 := by
    delta Char.toLower
    rw [dif_pos h]
    rfl
  delta Char.toUpper
  split
  · simp only [Char.ext_iff, hlower]
    grind
  · simp only [Char.ext_iff, hlower]
    grind

theorem ofLetter?_eq_some_iff {c : Char} {a : Axis} :
    Axis.ofLetter? c = some a ↔ c = a.letter ∨ c = a.letter.toLower := by
  have hupper : Axis.ofLetter? c = some a ↔ c.toUpper = a.letter := by
    unfold Axis.ofLetter?
    cases a <;> grind [Axis.letter]
  rw [hupper]
  exact toUpper_eq_iff (by cases a <;> decide)

/-- All of the characters of a kind that a text starts with, at least one. -/
structure MaximalRun (p : Char → Bool) (run after : List Char) : Prop where
  ne_nil : run ≠ []
  mem : ∀ c ∈ run, p c = true
  stop : ∀ c ∈ after.head?, p c = false

theorem maximalRun_iff {p : Char → Bool} {cs run : List Char} :
    (∃ after, cs = run ++ after ∧ MaximalRun p run after) ↔ cs.takeWhile p = run ∧ run ≠ [] := by
  constructor
  · rintro ⟨after, rfl, hrun⟩
    exact ⟨(takeWhile_run hrun.mem hrun.stop).1, hrun.ne_nil⟩
  · rintro ⟨rfl, hne⟩
    exact ⟨cs.dropWhile p, List.takeWhile_append_dropWhile.symm,
      ⟨hne, fun c => List.mem_takeWhile_imp, head_dropWhile p cs⟩⟩

/-- At the place `i` stands a letter, in either case, with `front` right after it and then all of
the characters of a kind that follow. -/
def Stands (p : Char → Bool) (upper : Char) (front run cs : List Char) (i : Nat) : Prop :=
  ∃ letter after, cs.drop i = letter :: (front ++ (run ++ after)) ∧
    (letter = upper ∨ letter = upper.toLower) ∧ MaximalRun p run after

section
variable {p : Char → Bool} {upper c : Char} {front run cs : List Char} {i : Nat}

theorem Stands.maximalRun (h : Stands p upper front run cs i) :
    ∃ after, MaximalRun p run after := by
  obtain ⟨letter, after, -, -, hrun⟩ := h
  exact ⟨after, hrun⟩

theorem Stands.run_unique {run' : List Char} (h : Stands p upper front run cs i)
    (h' : Stands p upper front run' cs i) : run = run' := by
  obtain ⟨letter, after, hdrop, -, hrun⟩ := h
  obtain ⟨letter', after', hdrop', -, hrun'⟩ := h'
  have hrest := (List.cons.inj (hdrop.symm.trans hdrop')).2
  have htail := List.append_cancel_left hrest
  have htake := (maximalRun_iff.mp ⟨after, rfl, hrun⟩).1
  have htake' := (maximalRun_iff.mp ⟨after', htail, hrun'⟩).1
  exact htake.symm.trans htake'

theorem not_stands_nil : ¬Stands p upper front run [] i := by
  rintro ⟨letter, after, hdrop, -⟩
  simp at hdrop

theorem stands_zero_iff :
    Stands p upper front run (c :: cs) 0 ↔ (c = upper ∨ c = upper.toLower) ∧
      ∃ after, cs = front ++ (run ++ after) ∧ MaximalRun p run after := by
  constructor
  · rintro ⟨letter, after, hdrop, hletter, hrun⟩
    obtain ⟨rfl, rfl⟩ := List.cons.inj hdrop
    exact ⟨hletter, after, rfl, hrun⟩
  · rintro ⟨hletter, after, rfl, hrun⟩
    exact ⟨c, after, rfl, hletter, hrun⟩

theorem stands_succ_iff :
    Stands p upper front run (c :: cs) (i + 1) ↔ Stands p upper front run cs i := Iff.rfl

end

/-! ### The G word -/

/-- A letter G at the place `i` with the digits `ds` right after it. -/
def GStands (cs : List Char) (i : Nat) (ds : List Char) : Prop :=
  Stands Text.isScriptDigit 'G' [] ds cs i

/-- The G word that stands before all others. -/
structure FirstG (cs : List Char) (i : Nat) (ds : List Char) : Prop where
  stands : GStands cs i ds
  first : ∀ j < i, ∀ es, ¬GStands cs j es

/-- What a text says with its first G word: a number below `2 ^ 32` in plain digits, or another
motion without a number. -/
inductive GSpells (cs : List Char) : Option Nat → Option MotionKind → Prop where
  | nothing (h : ∀ i ds, ¬GStands cs i ds) : GSpells cs none none
  | number {i : Nat} {ds : List Char} (h : FirstG cs i ds) (plain : ∀ c ∈ ds, isDigit c = true)
      (small : value ds < 2 ^ 32) :
      GSpells cs (some (value ds))
        (some (if value ds = 0 then .rapid else if value ds = 1 then .cut else .other))
  | other {i : Nat} {ds : List Char} (h : FirstG cs i ds)
      (unfit : ¬((∀ c ∈ ds, isDigit c = true) ∧ value ds < 2 ^ 32)) : GSpells cs none (some .other)

theorem FirstG.unique {cs ds es : List Char} {i j : Nat} (h : FirstG cs i ds)
    (h' : FirstG cs j es) : ds = es := by
  obtain hlt | rfl | hgt := lt_trichotomy i j
  · exact absurd h.stands (h'.first i hlt ds)
  · exact h.stands.run_unique h'.stands
  · exact absurd h'.stands (h.first j hgt es)

theorem GSpells.unique {cs : List Char} {n n' : Option Nat} {k k' : Option MotionKind}
    (h : GSpells cs n k) (h' : GSpells cs n' k') : n = n' ∧ k = k' := by
  cases h with
  | nothing hnone =>
    cases h' with
    | nothing => exact ⟨rfl, rfl⟩
    | number hfirst => exact absurd hfirst.stands (hnone _ _)
    | other hfirst => exact absurd hfirst.stands (hnone _ _)
  | number hfirst plain small =>
    cases h' with
    | nothing hnone => exact absurd hfirst.stands (hnone _ _)
    | number hother =>
      rw [hfirst.unique hother]
      exact ⟨rfl, rfl⟩
    | other hother unfit =>
      rw [← hfirst.unique hother] at unfit
      exact absurd ⟨plain, small⟩ unfit
  | other hfirst unfit =>
    cases h' with
    | nothing hnone => exact absurd hfirst.stands (hnone _ _)
    | number hother plain small =>
      rw [hfirst.unique hother] at unfit
      exact absurd ⟨plain, small⟩ unfit
    | other => exact ⟨rfl, rfl⟩

theorem gStands_zero_iff {c : Char} {cs ds : List Char} :
    GStands (c :: cs) 0 ds ↔ c.toUpper = 'G' ∧ cs.takeWhile Text.isScriptDigit = ds ∧ ds ≠ [] := by
  rw [GStands, stands_zero_iff, toUpper_eq_iff (by decide), ← maximalRun_iff]
  rfl

theorem not_gStands_zero {c : Char} {cs : List Char}
    (h : ¬(c.toUpper = 'G' ∧ cs.takeWhile Text.isScriptDigit ≠ [])) (ds : List Char) :
    ¬GStands (c :: cs) 0 ds := by
  intro hstands
  obtain ⟨hc, rfl, hne⟩ := gStands_zero_iff.mp hstands
  exact h ⟨hc, hne⟩

theorem FirstG.cons {c : Char} {cs ds : List Char} {i : Nat} (h : FirstG cs i ds)
    (hzero : ∀ es, ¬GStands (c :: cs) 0 es) : FirstG (c :: cs) (i + 1) ds where
  stands := stands_succ_iff.mpr h.stands
  first := by
    intro j hj es
    cases j with
    | zero => exact hzero es
    | succ j => exact h.first j (Nat.lt_of_succ_lt_succ hj) es

theorem firstG_of_gDigits? {cs ds : List Char} (h : gDigits? cs = some ds) :
    ∃ i, FirstG cs i ds := by
  induction cs with
  | nil => cases h
  | cons c cs ih =>
    rw [gDigits?] at h
    split at h
    case isTrue hhead =>
      cases h
      have hstands := gStands_zero_iff.mpr ⟨hhead.1, rfl, hhead.2⟩
      exact ⟨0, hstands, fun j hj => absurd hj (Nat.not_lt_zero j)⟩
    case isFalse hhead =>
      obtain ⟨i, hfirst⟩ := ih h
      exact ⟨i + 1, hfirst.cons (not_gStands_zero hhead)⟩

theorem not_gStands_of_gDigits? {cs : List Char} (h : gDigits? cs = none) :
    ∀ i ds, ¬GStands cs i ds := by
  induction cs with
  | nil => exact fun i ds => not_stands_nil
  | cons c cs ih =>
    rw [gDigits?] at h
    split at h
    case isTrue hhead => cases h
    case isFalse hhead =>
      intro i ds
      cases i with
      | zero => exact not_gStands_zero hhead ds
      | succ i => exact ih h i ds

theorem gNumber?_eq (ds : List Char) :
    gNumber? ds =
      if ds.all isDigit = true ∧ value ds < 2 ^ 32 then some (value ds) else none := rfl

theorem ofNumber_eq (n : Nat) :
    MotionKind.ofNumber n = if n = 0 then .rapid else if n = 1 then .cut else .other := by
  unfold MotionKind.ofNumber
  split <;> simp_all

theorem gSpells_ofText (cs : List Char) :
    GSpells cs ((gDigits? cs).bind gNumber?) ((gDigits? cs).map Token.motionOf) := by
  cases hfound : gDigits? cs with
  | none => exact .nothing (not_gStands_of_gDigits? hfound)
  | some ds =>
    obtain ⟨i, hfirst⟩ := firstG_of_gDigits? hfound
    rw [Option.bind_some, Option.map_some, Token.motionOf, gNumber?_eq]
    by_cases hfit : ds.all isDigit = true ∧ value ds < 2 ^ 32
    · have hnumber := GSpells.number hfirst (List.all_eq_true.mp hfit.1) hfit.2
      rw [← ofNumber_eq] at hnumber
      rwa [if_pos hfit]
    · rw [if_neg hfit]
      exact .other hfirst fun h => hfit ⟨List.all_eq_true.mpr h.1, h.2⟩

/-! ### Axis words -/

/-- An axis word as it is written: its letter, a sign, and the digits and points after it. -/
structure AxisWord where
  axis : Axis
  sign : Sign
  run : List Char
  deriving DecidableEq, Repr

namespace AxisWord

def text (w : AxisWord) : List Char := w.sign.text ++ w.run

def WellFormed (w : AxisWord) : Prop := IsUnsigned w.run

instance (w : AxisWord) : Decidable w.WellFormed := inferInstanceAs (Decidable (IsUnsigned w.run))

def numeral (w : AxisWord) : Numeral := ofUnsigned w.sign.isNegative w.run

def occurrence (w : AxisWord) : Occurrence := ⟨w.axis, w.text⟩

def warning (number : Nat) (w : AxisWord) : Warning :=
  ⟨number, w.axis.letter, String.ofList w.text⟩

end AxisWord

/-- The letter of an axis word at the place `i`, with its sign and all of the digits and points
right after it. -/
def WordStands (cs : List Char) (i : Nat) (w : AxisWord) : Prop :=
  Stands isValueChar w.axis.letter w.sign.text w.run cs i

/-- The axis words of a text from left to right, each with its place. -/
structure WordPlaces (cs : List Char) (found : List (Nat × AxisWord)) : Prop where
  sorted : found.Pairwise fun v w => v.1 < w.1
  mem_iff : ∀ i w, (i, w) ∈ found ↔ WordStands cs i w

theorem WordPlaces.unique {cs : List Char} {found found' : List (Nat × AxisWord)}
    (h : WordPlaces cs found) (h' : WordPlaces cs found') : found = found' := by
  -- two lists that are sorted by place and have the same members are one list
  have hnodup {ws : List (Nat × AxisWord)} (hsorted : ws.Pairwise fun v w => v.1 < w.1) :
      ws.Nodup := hsorted.imp fun hlt heq => by simp [heq] at hlt
  have hperm : found.Perm found' := by
    rw [List.perm_ext_iff_of_nodup (hnodup h.sorted) (hnodup h'.sorted)]
    intro v
    rw [h.mem_iff v.1 v.2, h'.mem_iff v.1 v.2]
  exact hperm.eq_of_pairwise (fun v w _ _ hlt hgt => absurd hlt hgt.asymm) h.sorted h'.sorted

/-- What a text says, word by word: the last value of each axis, and a warning for each word that
makes no number. -/
structure Spells {α : Type} [Scalar α] (number : Nat) (cs : List Char) (t : Token α)
    (found : List (Nat × AxisWord)) : Prop where
  gWord : GSpells cs t.gNumber t.motion
  places : WordPlaces cs found
  value : ∀ a, t.words.get a =
    (((found.map Prod.snd).filter fun w => w.axis = a ∧ w.WellFormed).getLast?).map
      fun w => Scalar.ofNumeral w.numeral
  warnings : t.warnings =
    ((found.map Prod.snd).filter fun w => ¬w.WellFormed).map (AxisWord.warning number)

theorem Spells.unique {α : Type} [Scalar α] {number : Nat} {cs : List Char} {t t' : Token α}
    {found found' : List (Nat × AxisWord)} (h : Spells number cs t found)
    (h' : Spells number cs t' found') : t = t' := by
  obtain rfl := h.places.unique h'.places
  obtain ⟨hnumber, hmotion⟩ := h.gWord.unique h'.gWord
  have hwords : t.words = t'.words := Words.ext_get fun a => (h.value a).trans (h'.value a).symm
  have hwarnings : t.warnings = t'.warnings := h.warnings.trans h'.warnings.symm
  cases t
  cases t'
  simp only at hnumber hmotion hwords hwarnings
  rw [hnumber, hmotion, hwords, hwarnings]

theorem MaximalRun.signSplit {run after : List Char} (h : MaximalRun isValueChar run after)
    (s : Sign) : SignSplit (s.text ++ (run ++ after)) s (run ++ after) where
  eq := rfl
  unsigned := by
    intro _ c hc
    rw [List.head?_append, Option.or_of_isSome (List.isSome_head?.mpr h.ne_nil)] at hc
    exact ne_sign_of_isValueChar (h.mem c (List.mem_of_mem_head? hc))

theorem wordStands_zero_iff {c : Char} {cs body : List Char} {s : Sign} (h : SignSplit cs s body)
    (w : AxisWord) :
    WordStands (c :: cs) 0 w ↔ Axis.ofLetter? c = some w.axis ∧ w.sign = s ∧
      body.takeWhile isValueChar = w.run ∧ w.run ≠ [] := by
  rw [WordStands, stands_zero_iff, ofLetter?_eq_some_iff, ← maximalRun_iff]
  constructor
  · rintro ⟨hletter, after, rfl, hrun⟩
    obtain ⟨hsign, hbody⟩ := h.unique (hrun.signSplit w.sign)
    exact ⟨hletter, hsign, after, hbody.symm, hrun⟩
  · rintro ⟨hletter, rfl, after, rfl, hrun⟩
    exact ⟨hletter, after, h.eq, hrun⟩

/-- At most one word stands at the start of a text, and it is the first that the scan finds. -/
theorem exists_headWord (c : Char) (cs : List Char) :
    ∃ head : Option AxisWord, (∀ w, WordStands (c :: cs) 0 w ↔ head = some w) ∧
      occurrences (c :: cs) = (head.map AxisWord.occurrence).toList ++ occurrences cs := by
  obtain ⟨s, body, hsplit⟩ := exists_signSplit cs
  simp only [wordStands_zero_iff hsplit]
  rw [occurrences, hsplit.valueText?_eq]
  cases hletter : Axis.ofLetter? c with
  | none => exact ⟨none, by simp, rfl⟩
  | some a =>
    by_cases hrun : body.takeWhile isValueChar = []
    · refine ⟨none, fun w => ?_, by simp [hrun]⟩
      rw [hrun]
      grind
    · refine ⟨some ⟨a, s, body.takeWhile isValueChar⟩, fun w => ?_, ?_⟩
      · constructor
        · rintro ⟨haxis, rfl, hbody, -⟩
          rw [hbody, Option.some.inj haxis]
        · intro hw
          obtain rfl := Option.some.inj hw
          exact ⟨rfl, rfl, rfl, hrun⟩
      · simp [hrun, AxisWord.occurrence, AxisWord.text]

def AxisWord.later (v : Nat × AxisWord) : Nat × AxisWord := (v.1 + 1, v.2)

theorem WordPlaces.cons {c : Char} {cs : List Char} {found : List (Nat × AxisWord)}
    (h : WordPlaces cs found) {head : Option AxisWord}
    (hhead : ∀ w, WordStands (c :: cs) 0 w ↔ head = some w) :
    WordPlaces (c :: cs) ((head.map fun w => (0, w)).toList ++ found.map AxisWord.later) where
  sorted := by
    rw [List.pairwise_append, List.pairwise_map]
    refine ⟨?_, h.sorted.imp fun hlt => Nat.succ_lt_succ hlt, ?_⟩
    · cases head <;> simp
    · -- the word at the head stands at zero, all others after it
      intro v hv w hw
      obtain ⟨u, -, rfl⟩ := List.mem_map.mp hw
      cases head with
      | none => cases hv
      | some _ =>
        obtain rfl := List.mem_singleton.mp hv
        exact Nat.succ_pos u.1
  mem_iff := by
    intro i w
    rw [List.mem_append, Option.mem_toList, List.mem_map]
    cases i with
    | zero =>
      rw [hhead]
      simp [AxisWord.later]
    | succ i =>
      rw [WordStands, stands_succ_iff, ← WordStands, ← h.mem_iff]
      simp [AxisWord.later]

/-- The scan of a text finds the words that stand in it, in their order. -/
theorem exists_wordPlaces (cs : List Char) :
    ∃ found, WordPlaces cs found ∧
      occurrences cs = found.map fun v => v.2.occurrence := by
  induction cs with
  | nil =>
    have hnone (i : Nat) (w : AxisWord) : ¬WordStands [] i w := not_stands_nil
    exact ⟨[], ⟨List.Pairwise.nil, fun i w => by simp [hnone]⟩, rfl⟩
  | cons c cs ih =>
    obtain ⟨found, hplaces, hfound⟩ := ih
    obtain ⟨head, hhead, hcons⟩ := exists_headWord c cs
    refine ⟨_, hplaces.cons hhead, ?_⟩
    rw [hcons, hfound, List.map_append, List.map_map]
    cases head <;> rfl

/-! ### Values and warnings -/

/-- The text of the word is read as its number, and not at all if the word is malformed. -/
def AxisWord.Reads (w : AxisWord) : Prop :=
  Numeral.read? w.text = if w.WellFormed then some w.numeral else none

theorem WordStands.reads {cs : List Char} {i : Nat} {w : AxisWord} (h : WordStands cs i w) :
    w.Reads := by
  obtain ⟨after, hrun⟩ := h.maximalRun
  exact read?_sign_append w.sign fun c hc => isValueChar_plain (hrun.mem c hc)

section
variable {α : Type} [Scalar α]

theorem assign_occurrence {w : AxisWord} (h : w.Reads) (words : Words α) :
    Occurrence.assign words w.occurrence =
      if w.WellFormed then words.set w.axis (Scalar.ofNumeral w.numeral) else words := by
  have hvalue : (w.occurrence.value? : Option α) =
      (if w.WellFormed then some w.numeral else none).map Scalar.ofNumeral := by rw [← h]; rfl
  rw [Occurrence.assign, hvalue]
  by_cases hw : w.WellFormed
  · simp only [if_pos hw, Option.map_some]
    rfl
  · simp only [if_neg hw, Option.map_none]

theorem get_foldl_assign {ws : List AxisWord} (h : ∀ w ∈ ws, w.Reads) (a : Axis) :
    ((ws.map AxisWord.occurrence).foldl Occurrence.assign ({} : Words α)).get a =
      ((ws.filter fun w => w.axis = a ∧ w.WellFormed).getLast?).map
        fun w => Scalar.ofNumeral w.numeral := by
  -- from the last word on, since a later word overwrites the earlier ones of its axis
  induction ws using List.reverseRecOn with
  | nil => cases a <;> rfl
  | append_singleton ws w ih =>
    have hws := ih fun v hv => h v (List.mem_append_left _ hv)
    have hread := assign_occurrence (α := α) (h w (by simp))
    rw [List.map_append, List.foldl_append, List.map_singleton, List.foldl_cons, List.foldl_nil,
      hread, List.filter_append]
    by_cases hw : w.WellFormed
    · rw [if_pos hw, Words.get_set]
      by_cases ha : w.axis = a
      · rw [if_pos ha, List.filter_cons_of_pos (by simp [ha, hw]), List.filter_nil,
          List.getLast?_concat, Option.map_some]
      · rw [if_neg ha, List.filter_cons_of_neg (by simp [ha]), List.filter_nil, List.append_nil, hws]
    · rw [if_neg hw, List.filter_cons_of_neg (by simp [hw]), List.filter_nil, List.append_nil, hws]

theorem filterMap_warning? (number : Nat) {ws : List AxisWord} (h : ∀ w ∈ ws, w.Reads) :
    (ws.map AxisWord.occurrence).filterMap (Occurrence.warning? number) =
      (ws.filter fun w => ¬w.WellFormed).map (AxisWord.warning number) := by
  induction ws with
  | nil => rfl
  | cons w ws ih =>
    have hws := ih fun v hv => h v (List.mem_cons_of_mem _ hv)
    have hread : Numeral.read? w.occurrence.text = _ := h w List.mem_cons_self
    rw [List.map_cons, List.filterMap_cons, Occurrence.warning?, hread, hws]
    by_cases hw : w.WellFormed
    · rw [if_pos hw, List.filter_cons_of_neg (by simp [hw])]
    · rw [if_neg hw, List.filter_cons_of_pos (by simp [hw]), List.map_cons]
      rfl

theorem exists_spells_ofText (number : Nat) (cs : List Char) :
    ∃ found, Spells number cs (Token.ofText number cs : Token α) found := by
  obtain ⟨found, hplaces, hfound⟩ := exists_wordPlaces cs
  have hreads : ∀ w ∈ found.map Prod.snd, w.Reads := by
    intro w hw
    obtain ⟨⟨i, _⟩, hv, rfl⟩ := List.mem_map.mp hw
    exact ((hplaces.mem_iff i _).mp hv).reads
  have hoccurrences : occurrences cs = (found.map Prod.snd).map AxisWord.occurrence := by
    rw [hfound, List.map_map]
    rfl
  refine ⟨found, gSpells_ofText cs, hplaces, fun a => ?_, ?_⟩
  · rw [Token.ofText, hoccurrences]
    exact get_foldl_assign hreads a
  · rw [Token.ofText, hoccurrences]
    exact filterMap_warning? number hreads

end

/-- A line without a line feed has no token if nothing but blanks stands in front of its comment.
Any other line has the one token that says what the words in front of the comment say. -/
theorem Token.read?_spells {α : Type} [Scalar α] (number : Nat) {line : List Char}
    (h : '\n' ∉ line) :
    let cs := Text.trim (line.takeWhile fun c => c ≠ ';' && c ≠ '(')
    ((read? number line : Option (Token α)) = none ↔ cs = []) ∧
      ∀ t : Token α, read? number line = some t ↔ cs ≠ [] ∧ ∃ found, Spells number cs t found := by
  intro cs
  have hcomment : stripComment line = line.takeWhile fun c => c ≠ ';' && c ≠ '(' := by
    rw [stripComment_eq_takeWhile h]
    congr
    funext c
    simp [startsComment]
  have hread : (read? number line : Option (Token α)) =
      if cs = [] then none else some (ofText number cs) := by rw [read?, hcomment]
  obtain ⟨found, hspells⟩ := exists_spells_ofText (α := α) number cs
  by_cases hcs : cs = []
  · simp [hread, hcs]
  · rw [hread, if_neg hcs]
    refine ⟨by simp [hcs], fun t => ⟨?_, ?_⟩⟩
    · intro ht
      obtain rfl := Option.some.inj ht
      exact ⟨hcs, found, hspells⟩
    · rintro ⟨-, other, ht⟩
      rw [hspells.unique ht]

def mixedLine : List Char := " g01 X+1.5x-2. Y1.2.3 Z４ z f.5;G0 X9".toList

theorem mixedLine_spells :
    '\n' ∉ mixedLine ∧
    ∃ (t : Token Rat) (found : List (Nat × AxisWord)),
      Token.read? 7 mixedLine = some t ∧
      Spells 7 "g01 X+1.5x-2. Y1.2.3 Z４ z f.5".toList t found ∧
      t.gNumber = some 1 ∧ t.words = { x := some (-2), f := some (1 / 2) } ∧
      t.warnings = [⟨7, 'Y', "1.2.3"⟩, ⟨7, 'Z', "４"⟩] := by
  have hline : '\n' ∉ mixedLine := by decide
  have htext : Text.trim (mixedLine.takeWhile fun c => c ≠ ';' && c ≠ '(') =
      "g01 X+1.5x-2. Y1.2.3 Z４ z f.5".toList := by decide
  have hparts : (Token.read? 7 mixedLine : Option (Token Rat)).map
      (fun t => (t.gNumber, t.words, t.warnings)) = some (some 1, { x := some (-2), f := some (1 / 2) },
        [⟨7, 'Y', "1.2.3"⟩, ⟨7, 'Z', "４"⟩]) := by decide +kernel
  obtain ⟨t, hread, heq⟩ := Option.map_eq_some_iff.mp hparts
  obtain ⟨-, found, hspells⟩ := ((Token.read?_spells (α := Rat) 7 hline).2 t).mp hread
  rw [htext] at hspells
  simp only [Prod.mk.injEq] at heq
  exact ⟨hline, t, found, hread, hspells, heq⟩

end BasRelief.Gcode
