import BasRelief.Proofs.Gcode.LineWords
import BasRelief.Gcode.Printer

/-!
# The line of a move is read as that move

The line of a move is its G word and the words of the axes and the feed that it sets. Reading it
finds the G number of its kind and those words whose values are numbers, and nothing to warn of.
-/

namespace BasRelief

/-- Scalars whose text with a fixed number of places is a numeral or a name. -/
class PrintsValues (α : Type) [Scalar α] : Prop where
  fixed (places : Nat) (v : α) : Gcode.ValueText (Scalar.fixed places v).toList

instance : PrintsValues Float where
  fixed places v := by
    show Gcode.ValueText (Double.fixed places v).toList
    unfold Double.fixed
    cases Binary.ofFloat v with
    | nan => exact .named List.mem_cons_self
    | infinite negative =>
      cases negative with
      | false => exact .named (List.mem_cons_of_mem _ List.mem_cons_self)
      | true => exact .named (List.mem_cons_of_mem _ (List.mem_cons_of_mem _ List.mem_cons_self))
    | finite negative m e =>
      dsimp only
      rw [String.toList_ofList]
      exact .numeral negative places _

instance : PrintsValues Rat where
  fixed places v := by
    show Gcode.ValueText (Exact.fixed places v).toList
    rw [Exact.fixed, String.toList_ofList]
    exact .numeral _ places _

def Motion.gNumber {α : Type} : Motion α → Nat
  | .rapid .. => 0
  | .cut .. => 1

namespace Gcode
variable {α : Type} [Scalar α]

/-! ### The words of a move -/

def wordText (o : Occurrence) : List Char := ' ' :: o.axis.letter :: o.text

def coordinate? (a : Axis) (v : Option α) : Option Occurrence :=
  v.map fun v => ⟨a, (Scalar.fixed 3 (thousandths v)).toList⟩

def feed? (v : Option α) : Option Occurrence := v.map fun v => ⟨.f, (Scalar.fixed 0 v).toList⟩

def motionWords (m : Motion α) : List Occurrence :=
  (coordinate? .x m.target.x).toList ++ (coordinate? .y m.target.y).toList ++
    (coordinate? .z m.target.z).toList ++ (feed? m.feed).toList

theorem toList_coordinateWord (a : Axis) (v : Option α) :
    (coordinateWord a v).toList = (coordinate? a v).toList.flatMap wordText := by
  cases v with
  | none => rfl
  | some v =>
    simp only [coordinateWord, coordinate?, Option.map_some, Option.toList_some,
      List.flatMap_singleton, wordText, String.toList_append, String.toList_ofList]
    rfl

theorem toList_feedWord (v : Option α) :
    (feedWord v).toList = (feed? v).toList.flatMap wordText := by
  cases v with
  | none => rfl
  | some v =>
    simp only [feedWord, feed?, Option.map_some, Option.toList_some, List.flatMap_singleton,
      wordText, String.toList_append, String.toList_ofList]
    rfl

theorem toList_motionLine (m : Motion α) :
    (motionLine m).toList = (moveWord m).toList ++ (motionWords m).flatMap wordText := by
  simp only [motionLine, motionWords, String.toList_append, toList_coordinateWord,
    toList_feedWord, List.flatMap_append, List.append_assoc]

theorem valueText_of_mem_motionWords [PrintsValues α] {m : Motion α} {o : Occurrence}
    (h : o ∈ motionWords m) : ValueText o.text := by
  have hcoordinate {a : Axis} {v : Option α} (h : o ∈ (coordinate? a v).toList) :
      ValueText o.text := by
    obtain ⟨v, _, rfl⟩ := Option.map_eq_some_iff.mp (Option.mem_toList.mp h)
    exact PrintsValues.fixed 3 (thousandths v)
  have hfeed (h : o ∈ (feed? m.feed).toList) : ValueText o.text := by
    obtain ⟨v, _, rfl⟩ := Option.map_eq_some_iff.mp (Option.mem_toList.mp h)
    exact PrintsValues.fixed 0 v
  simp only [motionWords, List.mem_append] at h
  obtain ((h | h) | h) | h := h
  · exact hcoordinate h
  · exact hcoordinate h
  · exact hcoordinate h
  · exact hfeed h

/-! ### Searching a line of words -/

theorem occurrences_words (ws : List Occurrence) (head : List Char) :
    occurrences (head ++ ws.flatMap wordText) =
      occurrences head ++ ws.flatMap fun o => occurrences (o.axis.letter :: o.text) := by
  induction ws generalizing head with
  | nil => simp only [List.flatMap_nil, List.append_nil]
  | cons o ws ih =>
    have hblank := occurrences_append_stop endsValue_blank head
      ((o.axis.letter :: o.text) ++ ws.flatMap wordText)
    have hskip := occurrences_cons_of_none (c := ' ') (by decide)
      ((o.axis.letter :: o.text) ++ ws.flatMap wordText)
    rw [List.flatMap_cons, List.flatMap_cons]
    -- the blank cuts off the head, and the first word is the head of what is left
    show occurrences (head ++ ' ' :: ((o.axis.letter :: o.text) ++ ws.flatMap wordText)) = _
    rw [hblank, hskip, ih (o.axis.letter :: o.text)]

theorem occurrences_valueWords {ws : List Occurrence} (h : ∀ o ∈ ws, ValueText o.text)
    {head : List Char} (hhead : occurrences head = []) :
    occurrences (head ++ ws.flatMap wordText) =
      ws.filter fun o => (Numeral.read? o.text).isSome := by
  rw [occurrences_words, hhead, List.nil_append]
  induction ws with
  | nil => rfl
  | cons o ws ih =>
    have hone := occurrences_valueText o.axis (h o List.mem_cons_self)
    have hrest := ih fun u hu => h u (List.mem_cons_of_mem _ hu)
    rw [List.flatMap_cons, hone, hrest, ← List.filter_append, List.singleton_append]

theorem gDigits?_words (ws : List Occurrence) {head ds : List Char}
    (hhead : gDigits? head = some ds) :
    gDigits? (head ++ ws.flatMap wordText) = some ds := by
  cases ws with
  | nil => rw [List.flatMap_nil, List.append_nil, hhead]
  | cons o ws =>
    have hblank := gDigits?_append_stop (c := ' ') (by decide) head
      ((o.axis.letter :: o.text) ++ ws.flatMap wordText)
    rw [hhead, Option.some_or] at hblank
    rw [List.flatMap_cons]
    exact hblank

/-! ### The ends of a line -/

def isSolid (c : Char) : Bool := !Text.isBlank c && !startsComment c

theorem ValueText.solid {cs : List Char} (h : ValueText cs) : ∀ c ∈ cs, isSolid c = true :=
  h.forall_mem (fun _ => forall_isDigit (p := fun c => isSolid c = true) (by decide))
    (by decide)

theorem trim_of_ends {cs : List Char} (hhead : ∀ c ∈ cs.head?, Text.isBlank c = false)
    (hlast : ∀ c ∈ cs.getLast?, Text.isBlank c = false) : Text.trim cs = cs := by
  have hkeep {ds : List Char} (h : ∀ c ∈ ds.head?, Text.isBlank c = false) :
      ds.dropWhile Text.isBlank = ds := by
    cases ds with
    | nil => rfl
    | cons d ds => rw [List.dropWhile_cons_of_neg (by simp [h d rfl])]
  have hreverse : cs.reverse.dropWhile Text.isBlank = cs.reverse := by
    apply hkeep
    rw [List.head?_reverse]
    exact hlast
  rw [Text.trim, hkeep hhead, Text.trimEnd, hreverse, List.reverse_reverse]

theorem getLast?_words {ws : List Occurrence} (h : ∀ o ∈ ws, ValueText o.text) {head : List Char}
    (hhead : ∀ c ∈ head.getLast?, Text.isBlank c = false) :
    ∀ c ∈ (head ++ ws.flatMap wordText).getLast?, Text.isBlank c = false := by
  induction ws generalizing head with
  | nil =>
    rw [List.flatMap_nil, List.append_nil]
    exact hhead
  | cons o ws ih =>
    have ho := h o List.mem_cons_self
    have hlast : ∀ c ∈ (head ++ wordText o).getLast?, Text.isBlank c = false := by
      intro c hc
      have hsplit : head ++ wordText o = (head ++ [' ', o.axis.letter]) ++ o.text := by
        simp [wordText]
      rw [hsplit, List.getLast?_append, List.getLast?_eq_some_getLast ho.ne_nil,
        Option.some_or] at hc
      have hmem := List.getLast_mem ho.ne_nil
      have hsolid := ho.solid c (Option.some.inj hc ▸ hmem)
      simp only [isSolid, Bool.and_eq_true, Bool.not_eq_true'] at hsolid
      exact hsolid.1
    rw [List.flatMap_cons, ← List.append_assoc]
    exact ih (fun u hu => h u (List.mem_cons_of_mem _ hu)) hlast

/-! ### Reading the line of a move -/

omit [Scalar α] in
theorem moveWord_cases (m : Motion α) :
    moveWord m = "G0" ∧ m.gNumber = 0 ∧ m.kind = .rapid ∨
      moveWord m = "G1" ∧ m.gNumber = 1 ∧ m.kind = .cut := by
  cases m with
  | rapid => exact .inl ⟨rfl, rfl, rfl⟩
  | cut => exact .inr ⟨rfl, rfl, rfl⟩

/-- What the first word of a line is: solid, without an axis, and with the digits of a number. -/
structure HeadWord (w : List Char) (n : Nat) (kind : MotionKind) : Prop where
  ne_nil : w ≠ []
  solid : ∀ c ∈ w, isSolid c = true
  found : occurrences w = []
  digits : ∃ ds, gDigits? w = some ds ∧ gNumber? ds = some n ∧ Token.motionOf ds = kind

omit [Scalar α] in
theorem headWord_moveWord (m : Motion α) : HeadWord (moveWord m).toList m.gNumber m.kind := by
  obtain ⟨hword, hnumber, hkind⟩ | ⟨hword, hnumber, hkind⟩ := moveWord_cases m
  · rw [hword, hnumber, hkind]
    exact ⟨by decide, List.all_eq_true.mp (by decide), by decide, ['0'], by decide⟩
  · rw [hword, hnumber, hkind]
    exact ⟨by decide, List.all_eq_true.mp (by decide), by decide, ['1'], by decide⟩

theorem solid_or_space_of_mem_motionLine [PrintsValues α] {m : Motion α} {c : Char}
    (h : c ∈ (motionLine m).toList) : isSolid c = true ∨ c = ' ' := by
  have hletters : ∀ a : Axis, isSolid a.letter = true := by
    intro a
    cases a <;> decide
  rw [toList_motionLine, List.mem_append, List.mem_flatMap] at h
  obtain h | ⟨o, ho, h⟩ := h
  · exact .inl ((headWord_moveWord m).solid c h)
  · simp only [wordText, List.mem_cons] at h
    obtain rfl | rfl | h := h
    · exact .inr rfl
    · exact .inl (hletters o.axis)
    · exact .inl ((valueText_of_mem_motionWords ho).solid c h)

theorem isBlank_of_solid {c : Char} (h : isSolid c = true) : Text.isBlank c = false := by
  simp only [isSolid, Bool.and_eq_true, Bool.not_eq_true'] at h
  exact h.1

theorem startsComment_of_solid {c : Char} (h : isSolid c = true) : startsComment c = false := by
  simp only [isSolid, Bool.and_eq_true, Bool.not_eq_true'] at h
  exact h.2

theorem trim_stripComment_motionLine [PrintsValues α] (m : Motion α) :
    Text.trim (stripComment (motionLine m).toList) = (motionLine m).toList := by
  have hword := headWord_moveWord m
  have hclean : ∀ c ∈ (motionLine m).toList, startsComment c = false := by
    intro c hc
    obtain h | rfl := solid_or_space_of_mem_motionLine hc
    · exact startsComment_of_solid h
    · decide
  rw [stripComment_of_clean hclean, trim_of_ends]
  · rw [toList_motionLine, List.head?_append, List.head?_eq_some_head hword.ne_nil,
      Option.some_or]
    intro c hc
    exact isBlank_of_solid (hword.solid c (Option.some.inj hc ▸ List.head_mem hword.ne_nil))
  · rw [toList_motionLine]
    apply getLast?_words fun o ho => valueText_of_mem_motionWords ho
    intro c hc
    exact isBlank_of_solid (hword.solid c (List.mem_of_getLast? hc))

def motionToken (m : Motion α) : Token α where
  gNumber := some m.gNumber
  motion := some m.kind
  words :=
    ((motionWords m).filter fun o => (Numeral.read? o.text).isSome).foldl Occurrence.assign {}
  warnings := []

theorem read?_motionLine [PrintsValues α] (number : Nat) (m : Motion α) :
    Token.read? number (motionLine m).toList = some (motionToken m) := by
  have hword := headWord_moveWord m
  have hline := toList_motionLine m
  have htexts : ∀ o ∈ motionWords m, ValueText o.text := fun o => valueText_of_mem_motionWords
  have hfound := occurrences_valueWords htexts hword.found
  obtain ⟨ds, hdigits, hnumber, hkind⟩ := hword.digits
  have hrun := gDigits?_words (motionWords m) hdigits
  have hwarnings : ((motionWords m).filter fun o => (Numeral.read? o.text).isSome).filterMap
      (Occurrence.warning? number) = [] := by
    apply List.filterMap_eq_nil_iff.mpr
    intro o ho
    have hread := (List.mem_filter.mp ho).2
    obtain ⟨n, hn⟩ := Option.isSome_iff_exists.mp hread
    rw [Occurrence.warning?, hn]
  have hne : (motionLine m).toList ≠ [] := by
    rw [hline]
    exact List.append_ne_nil_of_left_ne_nil hword.ne_nil _
  rw [Token.read?, trim_stripComment_motionLine, if_neg hne, Token.ofText, hline, hrun, hfound,
    hwarnings, Option.bind_some, hnumber, Option.map_some, hkind]
  rfl

end Gcode
end BasRelief
