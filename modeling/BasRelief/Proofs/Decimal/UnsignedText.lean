import BasRelief.Decimal.Numeral
import Mathlib.Data.List.TakeWhile

/-!
# Digits and points

Which texts without a sign and without a power of ten are read as a number: those that have plain
digits, at least one, and at most one point. The number is what the digits say together, over a
power of ten for those after the point.
-/

namespace BasRelief.Decimal

/-! ### Runs of characters -/

/-- A run of characters ends at the first one that does not belong to it. -/
theorem takeWhile_run {p : Char → Bool} {cs rest : List Char} (h : ∀ c ∈ cs, p c = true)
    (hrest : ∀ c ∈ rest.head?, p c = false) :
    (cs ++ rest).takeWhile p = cs ∧ (cs ++ rest).dropWhile p = rest := by
  rw [List.takeWhile_append_of_pos h, List.dropWhile_append_of_pos h]
  cases rest with
  | nil => exact ⟨List.append_nil cs, rfl⟩
  | cons c rest =>
    have hc : ¬p c = true := by rw [hrest c rfl]; exact Bool.false_ne_true
    rw [List.takeWhile_cons_of_neg hc, List.dropWhile_cons_of_neg hc]
    exact ⟨List.append_nil cs, rfl⟩

theorem head_dropWhile (p : Char → Bool) (cs : List Char) :
    ∀ c ∈ (cs.dropWhile p).head?, p c = false := by
  intro c hc
  have hstop := List.head?_dropWhile_not p cs
  rw [hc] at hstop
  exact hstop

/-! ### Unsigned numbers -/

/-- Digits, at least one, with at most one point among them. -/
structure IsUnsigned (cs : List Char) : Prop where
  mem : ∀ c ∈ cs, isDigit c = true ∨ c = '.'
  digit : ∃ c ∈ cs, isDigit c = true
  point : cs.count '.' ≤ 1

theorem isUnsigned_iff_all {cs : List Char} :
    (cs.all fun c => isDigit c || c = '.') = true ∧ cs.any isDigit = true ∧ cs.count '.' ≤ 1 ↔
      IsUnsigned cs := by
  rw [List.all_eq_true, List.any_eq_true]
  simp only [Bool.or_eq_true, decide_eq_true_eq]
  exact ⟨fun h => ⟨h.1, h.2.1, h.2.2⟩, fun h => ⟨h.mem, h.digit, h.point⟩⟩

instance (cs : List Char) : Decidable (IsUnsigned cs) := decidable_of_iff _ isUnsigned_iff_all

/-- What stands after the first point. -/
def afterPoint (cs : List Char) : List Char := (cs.dropWhile (· ≠ '.')).tail

theorem ne_point_of_isDigit {c : Char} (h : isDigit c = true) : c ≠ '.' := by
  rintro rfl
  exact absurd h (by decide)

theorem count_point_eq_zero {cs : List Char} (h : ∀ c ∈ cs, isDigit c = true) :
    cs.count '.' = 0 :=
  List.count_eq_zero.mpr fun hmem => ne_point_of_isDigit (h '.' hmem) rfl

theorem filter_point_eq_self {cs : List Char} (h : ∀ c ∈ cs, isDigit c = true) :
    cs.filter (· ≠ '.') = cs := by
  rw [List.filter_eq_self]
  intro c hc
  exact decide_eq_true (ne_point_of_isDigit (h c hc))

/-! ### Splitting -/

/-- A text as its first digits, the digits after a point that follows them, and the rest. -/
inductive DigitSplit : List Char → List Char → List Char → List Char → Prop where
  | whole {whole rest : List Char} (digit : ∀ c ∈ whole, isDigit c = true)
      (stop : ∀ c ∈ rest.head?, isDigit c = false ∧ c ≠ '.') :
      DigitSplit (whole ++ rest) whole [] rest
  | pointed {whole fraction rest : List Char} (digit : ∀ c ∈ whole ++ fraction, isDigit c = true)
      (stop : ∀ c ∈ rest.head?, isDigit c = false) :
      DigitSplit (whole ++ '.' :: (fraction ++ rest)) whole fraction rest

theorem exists_digitSplit (cs : List Char) :
    ∃ whole fraction rest,
      Numeral.splitDigits cs = (whole, fraction, rest) ∧ DigitSplit cs whole fraction rest := by
  have hcut := List.takeWhile_append_dropWhile (p := isDigit) (l := cs)
  have hwhole : ∀ c ∈ cs.takeWhile isDigit, isDigit c = true := fun c => List.mem_takeWhile_imp
  unfold Numeral.splitDigits
  dsimp only
  split
  case h_1 after hdrop =>
    refine ⟨_, _, _, rfl, ?_⟩
    have hsplit : cs = cs.takeWhile isDigit ++
        '.' :: (after.takeWhile isDigit ++ after.dropWhile isDigit) := by
      rw [List.takeWhile_append_dropWhile, ← hdrop, hcut]
    have hdigit : ∀ c ∈ cs.takeWhile isDigit ++ after.takeWhile isDigit, isDigit c = true := by
      intro c hc
      obtain hc | hc := List.mem_append.mp hc
      · exact hwhole c hc
      · exact List.mem_takeWhile_imp hc
    have hpointed := DigitSplit.pointed hdigit (head_dropWhile isDigit after)
    rwa [← hsplit] at hpointed
  case h_2 hpoint =>
    refine ⟨_, _, _, rfl, ?_⟩
    have hrest : ∀ c ∈ (cs.dropWhile isDigit).head?, isDigit c = false ∧ c ≠ '.' := by
      intro c hc
      refine ⟨head_dropWhile isDigit cs c hc, ?_⟩
      rintro rfl
      obtain ⟨after, hafter⟩ := List.head?_eq_some_iff.mp hc
      exact hpoint after hafter
    have hsplit := DigitSplit.whole hwhole hrest
    rwa [hcut] at hsplit

namespace DigitSplit
variable {cs whole fraction rest : List Char}

theorem isDigit_of_mem (h : DigitSplit cs whole fraction rest) :
    ∀ c ∈ whole ++ fraction, isDigit c = true := by
  cases h with
  | whole digit stop => rwa [List.append_nil]
  | pointed digit stop => exact digit

theorem mem_of_mem_rest (h : DigitSplit cs whole fraction rest) {c : Char} (hc : c ∈ rest) :
    c ∈ cs := by
  cases h with
  | whole digit stop => simp [hc]
  | pointed digit stop => simp [hc]

theorem filter_eq (h : DigitSplit cs whole fraction []) :
    cs.filter (· ≠ '.') = whole ++ fraction := by
  cases h with
  | whole digit stop => rw [List.append_nil, filter_point_eq_self digit]
  | pointed digit stop =>
    rw [List.append_nil, List.filter_append, List.filter_cons_of_neg (by decide),
      ← List.filter_append, filter_point_eq_self digit]

theorem afterPoint_eq (h : DigitSplit cs whole fraction []) : afterPoint cs = fraction := by
  have hall (ds : List Char) (hds : ∀ c ∈ ds, isDigit c = true) :
      ∀ c ∈ ds, decide (c ≠ '.') = true :=
    fun c hc => decide_eq_true (ne_point_of_isDigit (hds c hc))
  unfold afterPoint
  cases h with
  | whole digit stop =>
    rw [List.append_nil, List.dropWhile_eq_nil_iff.mpr (hall _ digit), List.tail_nil]
  | pointed digit stop =>
    have hwhole := hall whole fun c hc => digit c (List.mem_append_left _ hc)
    rw [List.append_nil, List.dropWhile_append_of_pos hwhole, List.dropWhile_cons_of_neg (by decide),
      List.tail_cons]

theorem rest_eq_nil (h : DigitSplit cs whole fraction rest) (hcs : IsUnsigned cs) : rest = [] := by
  cases rest with
  | nil => rfl
  | cons c rest =>
    exfalso
    -- what ends the digits is neither a digit nor a first point
    cases h with
    | whole digit stop =>
      obtain ⟨hdigit, hpoint⟩ := stop c rfl
      obtain hc | hc := hcs.mem c (by simp)
      · exact absurd hc (by simp [hdigit])
      · exact hpoint hc
    | pointed digit stop =>
      have hdigit := stop c rfl
      obtain hc | rfl := hcs.mem c (by simp)
      · exact absurd hc (by simp [hdigit])
      · have hone := hcs.point
        simp only [List.count_append, List.count_cons_self] at hone
        omega

theorem isUnsigned_iff (h : DigitSplit cs whole fraction []) :
    IsUnsigned cs ↔ whole ++ fraction ≠ [] := by
  have hmem (c : Char) : c ∈ cs ∧ c ≠ '.' ↔ c ∈ whole ++ fraction := by
    rw [← h.filter_eq, List.mem_filter, decide_eq_true_eq]
  constructor
  · intro hcs
    obtain ⟨c, hc, hdigit⟩ := hcs.digit
    exact List.ne_nil_of_mem ((hmem c).mp ⟨hc, ne_point_of_isDigit hdigit⟩)
  · intro hne
    obtain ⟨c, hc⟩ := List.exists_mem_of_ne_nil _ hne
    refine ⟨fun d hd => ?_, ⟨c, ((hmem c).mpr hc).1, h.isDigit_of_mem c hc⟩, ?_⟩
    · by_cases hpoint : d = '.'
      · exact .inr hpoint
      · exact .inl (h.isDigit_of_mem d ((hmem d).mp ⟨hd, hpoint⟩))
    · cases h with
      | whole digit stop => simp [count_point_eq_zero digit]
      | pointed digit stop =>
        have hzero := count_point_eq_zero digit
        simp only [List.count_append] at hzero
        simp only [List.append_nil, List.count_append, List.count_cons_self]
        omega

end DigitSplit
end BasRelief.Decimal

namespace BasRelief.Numeral
open Decimal

/-! ### Reading -/

inductive Sign where
  | none
  | plus
  | minus
  deriving DecidableEq, Repr

namespace Sign

def text : Sign → List Char
  | none => []
  | plus => ['+']
  | minus => ['-']

def isNegative : Sign → Bool
  | minus => true
  | _ => false

end Sign

/-- The number that a text of digits and a point stands for. -/
def ofUnsigned (negative : Bool) (cs : List Char) : Numeral :=
  ⟨negative, value (cs.filter (· ≠ '.')), -(afterPoint cs).length⟩

theorem readSign_of_unsigned {cs : List Char} (h : ∀ c ∈ cs.head?, c ≠ '+' ∧ c ≠ '-') :
    readSign cs = (false, cs) := by
  unfold readSign
  split
  · exact absurd rfl (h '+' rfl).1
  · exact absurd rfl (h '-' rfl).2
  · rfl

theorem readSign_append (s : Sign) {cs : List Char} (h : ∀ c ∈ cs.head?, c ≠ '+' ∧ c ≠ '-') :
    readSign (s.text ++ cs) = (s.isNegative, cs) := by
  cases s with
  | none => exact readSign_of_unsigned h
  | plus => rfl
  | minus => rfl

theorem read?_sign_append (s : Sign) {cs : List Char} (h : ∀ c ∈ cs, c ∉ ['+', '-', 'e', 'E']) :
    read? (s.text ++ cs) = if IsUnsigned cs then some (ofUnsigned s.isNegative cs) else none := by
  have hhead : ∀ c ∈ cs.head?, c ≠ '+' ∧ c ≠ '-' := by
    intro c hc
    have hnot := h c (List.mem_of_mem_head? hc)
    simp only [List.mem_cons, not_or] at hnot
    exact ⟨hnot.1, hnot.2.1⟩
  obtain ⟨whole, fraction, rest, hsplit, hparts⟩ := exists_digitSplit cs
  have hread : read? (s.text ++ cs) =
      if whole ++ fraction = [] then none else (readExponent? rest).map fun e =>
        ⟨s.isNegative, value (whole ++ fraction), e - fraction.length⟩ := by
    rw [read?, readSign_append s hhead]
    dsimp only
    rw [hsplit]
  rw [hread]
  cases hrest : rest with
  | nil =>
    subst hrest
    rw [ofUnsigned, hparts.filter_eq, hparts.afterPoint_eq]
    simp only [hparts.isUnsigned_iff, readExponent?, Option.map_some, Int.zero_sub, ne_eq, ite_not]
  | cons c after =>
    have hnot : ¬IsUnsigned cs := fun hcs => by simp [hparts.rest_eq_nil hcs] at hrest
    have hexponent : readExponent? (c :: after) = none := by
      have hc := h c (hparts.mem_of_mem_rest (by simp [hrest]))
      rw [readExponent?, if_neg fun he => hc (by grind)]
    rw [if_neg hnot, hexponent, Option.map_none, ite_self]

end BasRelief.Numeral
