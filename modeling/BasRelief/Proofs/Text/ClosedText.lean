import BasRelief.Proofs.Text.LineCut
import Mathlib.Data.List.Basic
import Mathlib.Data.List.TakeWhile

/-!
# Texts that a line feed closes

Texts that are written with a line feed after each are cut one by one, for where a text is closed a
line ends. A closed text is a line and those that its own line feeds add, so it is read as the line
that was written exactly if it holds no line feed and ends in no carriage return.
-/

namespace BasRelief.Text

/-! ### Pieces -/

/-- A closed text is its front up to the first feed, and a piece more for each feed that it holds;
nothing of it gets into the pieces that follow. -/
theorem exists_pieces_closed {β : Type} [DecidableEq β] (feed : β) (text : List β) :
    ∃ added : List (List β × Bool), added.length = text.count feed ∧
      ∀ cs, pieces feed (text ++ feed :: cs) =
        (text.takeWhile (· != feed), true) :: (added ++ pieces feed cs) := by
  induction text with
  | nil => exact ⟨[], rfl, fun cs => pieces_append_feed List.not_mem_nil cs⟩
  | cons c text ih =>
    obtain ⟨added, hlength, hpieces⟩ := ih
    by_cases hc : c = feed
    · subst hc
      refine ⟨(text.takeWhile (· != c), true) :: added, ?_, fun cs => ?_⟩
      · rw [List.length_cons, hlength, List.count_cons_self]
      · rw [List.cons_append, pieces_cons, addSymbol_feed, hpieces,
          List.takeWhile_cons_of_neg (by simp)]
        rfl
    · refine ⟨added, ?_, fun cs => ?_⟩
      · rw [hlength, List.count_cons_of_ne hc]
      · rw [List.cons_append, pieces_cons, addSymbol_of_ne hc, hpieces,
          List.takeWhile_cons_of_pos (by simpa using hc)]
        rfl

/-! ### Lines -/

/-- The lines after the first one of a text that a line feed closes. -/
def addedLines (text : List Char) : List (List Char) := (lines (text ++ ['\n'])).tail

theorem lines_closed (text : List Char) :
    lines (text ++ ['\n']) =
      withoutReturn '\r' (text.takeWhile (· != '\n'), true) :: addedLines text := by
  obtain ⟨added, _, hpieces⟩ := exists_pieces_closed '\n' text
  rw [addedLines, lines, hpieces, List.map_cons, List.tail_cons]

theorem length_addedLines (text : List Char) : (addedLines text).length = text.count '\n' := by
  obtain ⟨added, hlength, hpieces⟩ := exists_pieces_closed '\n' text
  rw [addedLines, lines, hpieces, List.map_cons, List.tail_cons, List.length_map]
  exact (congrArg List.length (List.append_nil added)).trans hlength

theorem addedLines_eq_nil_iff {text : List Char} : addedLines text = [] ↔ '\n' ∉ text := by
  rw [← List.length_eq_zero_iff, length_addedLines, List.count_eq_zero]

/-- What stands in front of the first line feed is in no line after the first. -/
theorem addedLines_append {front : List Char} (h : '\n' ∉ front) (text : List Char) :
    addedLines (front ++ text) = addedLines text := by
  by_cases hnil : front = []
  · rw [hnil, List.nil_append]
  · obtain ⟨added, _, hpieces⟩ := exists_pieces_closed '\n' text
    rw [addedLines, addedLines, lines, lines, List.append_assoc, pieces_append hnil h, hpieces]
    rfl

theorem takeWhile_ne_feed {text : List Char} (h : '\n' ∉ text) :
    text.takeWhile (· != '\n') = text := by
  rw [List.takeWhile_eq_self_iff]
  intro c hc
  exact bne_iff_ne.mpr fun heq => h (heq ▸ hc)

theorem withoutReturn_eq_self_iff {text : List Char} :
    withoutReturn '\r' (text, true) = text ↔ text.getLast? ≠ some '\r' := by
  rw [withoutReturn, Bool.true_and]
  split
  case isTrue h =>
    have hlast : text.getLast? = some '\r' := of_decide_eq_true h
    refine iff_of_false (fun hdrop => ?_) (not_not_intro hlast)
    have hlength := congrArg List.length hdrop
    have hne : text ≠ [] := by
      rintro rfl
      cases hlast
    have hpos := List.length_pos_of_ne_nil hne
    rw [List.length_dropLast] at hlength
    omega
  case isFalse h => exact iff_of_true rfl fun hlast => h (decide_eq_true hlast)

theorem withoutReturn_cons {c : Char} (h : c ≠ '\r') (text : List Char) (closed : Bool) :
    withoutReturn '\r' (c :: text, closed) = c :: withoutReturn '\r' (text, closed) := by
  cases text with
  | nil => simp [withoutReturn, h]
  | cons d text =>
    rw [withoutReturn, withoutReturn, List.getLast?_cons_cons, List.dropLast_cons_cons]
    split <;> rfl

theorem mem_of_mem_withoutReturn {c : Char} {text : List Char} {closed : Bool}
    (h : c ∈ withoutReturn '\r' (text, closed)) : c ∈ text := by
  rw [withoutReturn] at h
  split at h
  · exact (List.dropLast_sublist text).mem h
  · exact h

/-! ### Texts that are closed one after the other -/

theorem lines_flatMap_closed (texts : List (List Char)) :
    lines (texts.flatMap fun t => t ++ ['\n']) = texts.flatMap fun t => lines (t ++ ['\n']) := by
  induction texts with
  | nil => rfl
  | cons text texts ih =>
    obtain ⟨added, _, hpieces⟩ := exists_pieces_closed '\n' text
    rw [List.flatMap_cons, List.flatMap_cons, ← ih, List.append_assoc, List.singleton_append]
    simp only [lines, hpieces]
    simp [pieces]

theorem length_lines_flatMap (texts : List (List Char)) :
    (lines (texts.flatMap fun t => t ++ ['\n'])).length =
      texts.length + (texts.flatMap addedLines).length := by
  rw [lines_flatMap_closed]
  induction texts with
  | nil => rfl
  | cons text texts ih =>
    rw [List.flatMap_cons, List.flatMap_cons, List.length_append, ih, lines_closed,
      List.length_cons, List.length_cons, List.length_append]
    omega

/-- The lines that are read are the texts that were written exactly if none of these holds a line
feed or ends in a carriage return. -/
theorem lines_flatMap_eq_self_iff {texts : List (List Char)} :
    lines (texts.flatMap fun t => t ++ ['\n']) = texts ↔
      ∀ t ∈ texts, '\n' ∉ t ∧ t.getLast? ≠ some '\r' := by
  have hlines (h : ∀ t ∈ texts, '\n' ∉ t) :
      lines (texts.flatMap fun t => t ++ ['\n']) =
        texts.map fun t => withoutReturn '\r' (t, true) := by
    rw [lines_flatMap_closed, List.map_eq_flatMap]
    apply List.flatMap_congr
    intro t ht
    rw [lines_closed, takeWhile_ne_feed (h t ht), addedLines_eq_nil_iff.mpr (h t ht)]
  have hself : (texts.map fun t => withoutReturn '\r' (t, true)) = texts ↔
      ∀ t ∈ texts, t.getLast? ≠ some '\r' := by
    simp only [← withoutReturn_eq_self_iff]
    conv_lhs => rhs; rw [← List.map_id texts]
    rw [List.map_inj_left]
    rfl
  constructor
  · intro h
    have hlength := length_lines_flatMap texts
    rw [h, Nat.left_eq_add, List.length_eq_zero_iff, List.flatMap_eq_nil_iff] at hlength
    have hfeed : ∀ t ∈ texts, '\n' ∉ t := fun t ht => addedLines_eq_nil_iff.mp (hlength t ht)
    rw [hlines hfeed, hself] at h
    exact fun t ht => ⟨hfeed t ht, h t ht⟩
  · intro h
    rw [hlines fun t ht => (h t ht).1, hself]
    exact fun t ht => (h t ht).2

end BasRelief.Text
