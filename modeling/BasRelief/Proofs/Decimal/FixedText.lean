import BasRelief.Decimal.Fixed
import BasRelief.Proofs.Decimal.UnsignedText

/-!
# Fixed-point text reads back

A text with a fixed number of places is whole digits, a point, and as many digits as there are
places. The numeral that is read from it has the sign and the units that were written.
-/

namespace BasRelief.Decimal

/-! ### Digits -/

theorem toNat_of_isDigit {c : Char} (h : isDigit c = true) : 48 ≤ c.toNat ∧ c.toNat ≤ 57 := by
  simp only [isDigit, Bool.and_eq_true, decide_eq_true_eq, Char.le_def] at h
  exact h

theorem value_zero_cons (cs : List Char) : value ('0' :: cs) = value cs := rfl

theorem value_padLeft (width : Nat) (cs : List Char) : value (padLeft width cs) = value cs := by
  rw [padLeft]
  induction width - cs.length with
  | zero => rfl
  | succ k ih => rw [List.replicate_succ, List.cons_append, value_zero_cons, ih]

theorem le_length_padLeft (width : Nat) (cs : List Char) : width ≤ (padLeft width cs).length := by
  rw [padLeft, List.length_append, List.length_replicate]
  omega

theorem isDigit_of_mem_padLeft {width : Nat} {cs : List Char} (h : ∀ c ∈ cs, isDigit c = true) :
    ∀ c ∈ padLeft width cs, isDigit c = true := by
  intro c hc
  rw [padLeft, List.mem_append, List.mem_replicate] at hc
  obtain ⟨_, rfl⟩ | hc := hc
  · decide
  · exact h c hc

/-! ### The parts of a text -/

def withPoint (whole fraction : List Char) : List Char :=
  if fraction = [] then whole else whole ++ '.' :: fraction

/-- The digits of some units of the last place, cut where the point goes. -/
structure Places (places units : Nat) (whole fraction : List Char) : Prop where
  whole_ne_nil : whole ≠ []
  length_fraction : fraction.length = places
  digit : ∀ c ∈ whole ++ fraction, isDigit c = true
  value_eq : value (whole ++ fraction) = units

theorem placed_eq_withPoint (places units : Nat) :
    ∃ whole fraction, Places places units whole fraction ∧
      placed places units = withPoint whole fraction := by
  have hdigit : ∀ c ∈ digits units, isDigit c = true := fun c => isDigit_of_mem_digits
  by_cases hp : places = 0
  · refine ⟨digits units, [], ⟨digits_ne_nil units, hp.symm, ?_, ?_⟩, ?_⟩
    · rw [List.append_nil]
      exact hdigit
    · rw [List.append_nil, value_digits]
    · rw [placed, if_pos hp, withPoint, if_pos rfl]
  · have hlength := le_length_padLeft (places + 1) (digits units)
    generalize hds : padLeft (places + 1) (digits units) = ds at hlength
    have hcut := List.take_append_drop (ds.length - places) ds
    have hdrop : (ds.drop (ds.length - places)).length = places := by
      rw [List.length_drop]
      omega
    refine ⟨ds.take (ds.length - places), ds.drop (ds.length - places), ⟨?_, hdrop, ?_, ?_⟩, ?_⟩
    · intro hnil
      have htake := congrArg List.length hnil
      rw [List.length_take, List.length_nil] at htake
      omega
    · rw [hcut, ← hds]
      exact isDigit_of_mem_padLeft hdigit
    · rw [hcut, ← hds, value_padLeft, value_digits]
    · have hne : ds.drop (ds.length - places) ≠ [] := by
        intro hnil
        rw [hnil, List.length_nil] at hdrop
        omega
      rw [placed, if_neg hp, hds, withPoint, if_neg hne]

theorem mem_withPoint {whole fraction : List Char} (h : ∀ c ∈ whole ++ fraction, isDigit c = true)
    {c : Char} (hc : c ∈ withPoint whole fraction) : isDigit c = true ∨ c = '.' := by
  rw [withPoint] at hc
  split at hc
  · exact .inl (h c (List.mem_append_left _ hc))
  · obtain hc | hc := List.mem_append.mp hc
    · exact .inl (h c (List.mem_append_left _ hc))
    · obtain rfl | hc := List.mem_cons.mp hc
      · exact .inr rfl
      · exact .inl (h c (List.mem_append_right _ hc))

theorem mem_placed {places units : Nat} {c : Char} (h : c ∈ placed places units) :
    isDigit c = true ∨ c = '.' := by
  obtain ⟨whole, fraction, hparts, heq⟩ := placed_eq_withPoint places units
  rw [heq] at h
  exact mem_withPoint hparts.digit h

theorem mem_signed_placed {negative : Bool} {places units : Nat} {c : Char}
    (h : c ∈ signed negative (placed places units)) : isDigit c = true ∨ c = '.' ∨ c = '-' := by
  have hplaced (h : c ∈ placed places units) : isDigit c = true ∨ c = '.' ∨ c = '-' := by
    obtain h | h := mem_placed h
    · exact .inl h
    · exact .inr (.inl h)
  cases negative with
  | false => exact hplaced h
  | true =>
    obtain rfl | h := List.mem_cons.mp h
    · exact .inr (.inr rfl)
    · exact hplaced h

theorem placed_ne_nil (places units : Nat) : placed places units ≠ [] := by
  obtain ⟨whole, fraction, hparts, heq⟩ := placed_eq_withPoint places units
  rw [heq, withPoint]
  split
  · exact hparts.whole_ne_nil
  · simp

end BasRelief.Decimal

namespace BasRelief.Numeral
open Decimal

/-! ### Reading -/

theorem exists_sign (negative : Bool) (cs : List Char) :
    ∃ s : Sign, s.isNegative = negative ∧ signed negative cs = s.text ++ cs := by
  cases negative with
  | false => exact ⟨.none, rfl, rfl⟩
  | true => exact ⟨.minus, rfl, rfl⟩

theorem digitSplit_withPoint {whole fraction : List Char}
    (h : ∀ c ∈ whole ++ fraction, isDigit c = true) :
    DigitSplit (withPoint whole fraction) whole fraction [] := by
  rw [withPoint]
  split
  case isTrue hf =>
    subst hf
    rw [List.append_nil] at h
    have hwhole : DigitSplit (whole ++ []) whole [] [] := .whole h fun c hc => by cases hc
    rwa [List.append_nil] at hwhole
  case isFalse hf =>
    have hpointed : DigitSplit (whole ++ '.' :: (fraction ++ [])) whole fraction [] :=
      .pointed h fun c hc => by cases hc
    rwa [List.append_nil] at hpointed

/-- Digits with a point are read as all of the digits over a power of ten. -/
theorem read?_signed_withPoint (negative : Bool) {whole fraction : List Char} (hne : whole ≠ [])
    (h : ∀ c ∈ whole ++ fraction, isDigit c = true) :
    read? (signed negative (withPoint whole fraction)) =
      some ⟨negative, value (whole ++ fraction), -fraction.length⟩ := by
  have hall : whole ++ fraction ≠ [] := fun hnil => hne (List.append_eq_nil_iff.mp hnil).1
  have hsplit := digitSplit_withPoint h
  have hplain : ∀ c ∈ withPoint whole fraction, c ∉ ['+', '-', 'e', 'E'] := by
    intro c hc
    have hchar := mem_withPoint h hc
    simp only [List.mem_cons, List.not_mem_nil, or_false, not_or]
    refine ⟨?_, ?_, ?_, ?_⟩ <;> rintro rfl <;> revert hchar <;> decide
  obtain ⟨s, hnegative, hsigned⟩ := exists_sign negative (withPoint whole fraction)
  rw [hsigned, read?_sign_append s hplain, if_pos (hsplit.isUnsigned_iff.mpr hall), ofUnsigned,
    hsplit.filter_eq, hsplit.afterPoint_eq, hnegative]

/-- What was written with a fixed number of places is read back exactly. -/
theorem read?_signed_placed (negative : Bool) (places units : Nat) :
    read? (signed negative (placed places units)) = some ⟨negative, units, -places⟩ := by
  obtain ⟨whole, fraction, hparts, heq⟩ := placed_eq_withPoint places units
  rw [heq, read?_signed_withPoint negative hparts.whole_ne_nil hparts.digit, hparts.value_eq,
    hparts.length_fraction]

end BasRelief.Numeral
