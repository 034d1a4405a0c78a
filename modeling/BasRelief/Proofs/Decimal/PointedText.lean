import BasRelief.Decimal.Shortest
import BasRelief.Proofs.Decimal.FixedText
import Mathlib.Algebra.Order.Field.Power
import Mathlib.Algebra.Order.Field.Rat
import Mathlib.Data.List.Induction
import Mathlib.Tactic.FieldSimp
import Mathlib.Tactic.Ring

/-!
# Numbers with a point

A coefficient and a power of ten are written as digits with a point in them. The digits before the
point have no superfluous zero, and all digits together, over a power of ten, are the number.
-/

namespace BasRelief.Decimal

/-! ### Values of digits -/

theorem value_append (cs ds : List Char) :
    value (cs ++ ds) = value cs * 10 ^ ds.length + value ds := by
  induction ds using List.reverseRecOn with
  | nil => simp [value]
  | append_singleton ds c ih =>
    rw [← List.append_assoc, value_append_single, value_append_single, ih, List.length_append,
      List.length_singleton, Nat.pow_succ]
    ring

theorem value_replicate_zero (n : Nat) : value (List.replicate n '0') = 0 := by
  induction n with
  | zero => rfl
  | succ n ih => rw [List.replicate_succ, value_zero_cons, ih]

theorem head_digits_ne_zero {n : Nat} (hn : 0 < n) : ∃ c cs, digits n = c :: cs ∧ c ≠ '0' := by
  induction n using digits.induct with
  | case1 n h =>
    have key : ∀ d : Fin 10, 0 < d.val → digitChar d.val ≠ '0' := by decide
    exact ⟨digitChar n, [], by rw [digits, if_pos h], key ⟨n, h⟩ hn⟩
  | case2 n h ih =>
    obtain ⟨c, cs, heq, hc⟩ := ih (by omega)
    exact ⟨c, cs ++ [digitChar (n % 10)], by rw [digits, if_neg h, heq, List.cons_append], hc⟩

/-! ### Whole parts -/

/-- Digits as a number is written: no zero in front of other digits. -/
def IsWhole (cs : List Char) : Prop := cs = ['0'] ∨ ∃ c rest, cs = c :: rest ∧ c ≠ '0'

theorem IsWhole.ne_nil {cs : List Char} (h : IsWhole cs) : cs ≠ [] := by
  obtain rfl | ⟨c, rest, rfl, _⟩ := h
  · exact List.cons_ne_nil _ _
  · exact List.cons_ne_nil _ _

theorem isWhole_digits (n : Nat) : IsWhole (digits n) := by
  obtain rfl | hn := Nat.eq_zero_or_pos n
  · left
    rw [digits]
    rfl
  · exact .inr (head_digits_ne_zero hn)

theorem isDigit_of_mem_zeros {n : Nat} {c : Char} (h : c ∈ List.replicate n '0') :
    isDigit c = true := by
  rw [(List.mem_replicate.mp h).2]
  decide

/-! ### Parts -/

/-- The digits of `n · 10 ^ e` before and after the point. -/
structure Pointed (n : Nat) (e : Int) (whole fraction : List Char) : Prop where
  whole_isWhole : IsWhole whole
  fraction_ne_nil : fraction ≠ []
  digit : ∀ c ∈ whole ++ fraction, isDigit c = true
  places : (fraction.length : Int) = max 1 (-e)
  value_eq : (value (whole ++ fraction) * 10 ^ (-(fraction.length : Int)) : Rat) = n * 10 ^ e

/-- At most one zero after the point is there for the point alone. -/
theorem Pointed.value_lt {n : Nat} {e : Int} {whole fraction : List Char}
    (h : Pointed n e whole fraction) {bound : Nat} (hn : n < bound)
    (hsize : (n * 10 ^ e * 10 : Rat) < bound) : value (whole ++ fraction) < bound := by
  have hvalue : (value (whole ++ fraction) : Rat) = n * 10 ^ e * 10 ^ (fraction.length : Int) := by
    rw [← h.value_eq, mul_assoc, ← zpow_add₀ (by norm_num), neg_add_cancel, zpow_zero, mul_one]
  have hlt : (value (whole ++ fraction) : Rat) < bound := by
    obtain hone | hpos := le_or_gt 0 e
    · have hlength : (fraction.length : Int) = 1 := by rw [h.places]; omega
      rw [hvalue, hlength, zpow_one]
      exact hsize
    · obtain hall | hshort := eq_or_ne (fraction.length : Int) (-e)
      · rw [hvalue, hall, mul_assoc, ← zpow_add₀ (by norm_num), add_neg_cancel, zpow_zero, mul_one]
        exact_mod_cast hn
      · exact absurd h.places (by omega)
  exact_mod_cast hlt

theorem pointed_natural {n k : Nat} (h : n = 0 → k = 0) :
    Pointed n k (digits n ++ List.replicate k '0') ['0'] where
  whole_isWhole := by
    obtain rfl | hn := Nat.eq_zero_or_pos n
    · rw [h rfl, List.replicate_zero, List.append_nil]
      exact isWhole_digits 0
    · obtain ⟨c, cs, heq, hc⟩ := head_digits_ne_zero hn
      rw [heq]
      exact .inr ⟨c, cs ++ List.replicate k '0', rfl, hc⟩
  fraction_ne_nil := List.cons_ne_nil _ _
  digit := by
    intro c hc
    obtain hc | hc := List.mem_append.mp hc
    · obtain hc | hc := List.mem_append.mp hc
      · exact isDigit_of_mem_digits hc
      · exact isDigit_of_mem_zeros hc
    · rw [List.mem_singleton.mp hc]
      decide
  places := by
    rw [List.length_singleton]
    omega
  value_eq := by
    have hzero : value ['0'] = 0 := rfl
    rw [value_append, value_append, value_digits, value_replicate_zero, hzero, List.length_replicate,
      List.length_singleton]
    push_cast
    rw [zpow_natCast, zpow_neg, zpow_one]
    ring

/-- Digits that reach over the point are cut there. -/
theorem pointed_cut {n places : Nat} (hn : 0 < n) (hp : 0 < places)
    (hlt : places < (digits n).length) :
    Pointed n (-places) ((digits n).take ((digits n).length - places))
      ((digits n).drop ((digits n).length - places)) where
  whole_isWhole := by
    obtain ⟨c, cs, heq, hc⟩ := head_digits_ne_zero hn
    obtain ⟨k, hk⟩ := Nat.exists_eq_add_of_lt (Nat.sub_pos_of_lt hlt)
    rw [Nat.zero_add] at hk
    rw [hk, heq, List.take_succ_cons]
    exact .inr ⟨c, cs.take k, rfl, hc⟩
  fraction_ne_nil := by
    intro hnil
    have hlength := congrArg List.length hnil
    rw [List.length_drop, List.length_nil] at hlength
    omega
  digit := by
    rw [List.take_append_drop]
    exact fun c => isDigit_of_mem_digits
  places := by
    rw [List.length_drop]
    omega
  value_eq := by
    have hlength : ((digits n).drop ((digits n).length - places)).length = places := by
      rw [List.length_drop]
      omega
    rw [List.take_append_drop, value_digits, hlength]

/-- Digits that do not reach the point are filled up with zeros after it. -/
theorem pointed_filled {n places : Nat} (hle : (digits n).length ≤ places) :
    Pointed n (-places) ['0']
      (List.replicate (places - (digits n).length) '0' ++ digits n) where
  whole_isWhole := .inl rfl
  fraction_ne_nil := List.append_ne_nil_of_right_ne_nil _ (digits_ne_nil n)
  digit := by
    intro c hc
    rw [List.singleton_append] at hc
    obtain rfl | hc := List.mem_cons.mp hc
    · decide
    · obtain hc | hc := List.mem_append.mp hc
      · exact isDigit_of_mem_zeros hc
      · exact isDigit_of_mem_digits hc
  places := by
    have hpos := List.length_pos_iff.mpr (digits_ne_nil n)
    rw [List.length_append, List.length_replicate]
    omega
  value_eq := by
    have hlength : (List.replicate (places - (digits n).length) '0' ++ digits n).length = places := by
      rw [List.length_append, List.length_replicate]
      omega
    rw [List.singleton_append, value_zero_cons, hlength, value_append, value_replicate_zero,
      Nat.zero_mul, Nat.zero_add, value_digits]

theorem pointed_eq_parts {n : Nat} {e : Int} (h : n = 0 → e = 0) :
    ∃ whole fraction, Pointed n e whole fraction ∧ pointed n e = whole ++ '.' :: fraction := by
  unfold pointed positional
  dsimp only
  split
  case isTrue he =>
    obtain ⟨k, rfl⟩ := Int.eq_ofNat_of_zero_le he
    refine ⟨_, _, pointed_natural fun hn => Int.natCast_eq_zero.mp (h hn), ?_⟩
    rw [Int.toNat_natCast]
  case isFalse he =>
    obtain ⟨places, rfl⟩ : ∃ places : Nat, e = -places := ⟨(-e).toNat, by omega⟩
    have hn : 0 < n := Nat.pos_of_ne_zero fun hn => he (h hn).ge
    rw [neg_neg, Int.toNat_natCast]
    split
    case isTrue hlt => exact ⟨_, _, pointed_cut hn (by omega) hlt, rfl⟩
    case isFalse hle => exact ⟨_, _, pointed_filled (by omega), rfl⟩

end BasRelief.Decimal
