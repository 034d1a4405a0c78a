import BasRelief.Proofs.Document.Json.Words
import BasRelief.Proofs.Number.Printing

/-!
# Doubles that JSON keeps

Where the digits of a number and its power of ten are doubles themselves, they are put together with
one rounding, and a double that was written is found again. Beyond that the digits are rounded
first, or the power is, and another double may be read.
-/

namespace BasRelief.Document.Json
open Decimal

/-! ### Digits -/

theorem value_cons (c : Char) (cs : List Char) :
    value (c :: cs) = digitValue c * 10 ^ cs.length + value cs := by
  have hsingle : value [c] = digitValue c := by simp [value]
  rw [← List.singleton_append, value_append, hsingle]

/-- Digits that make less than `2 ^ 64` all count. -/
theorem gather_eq {n : Nat} {cs : List Char} (h : n * 10 ^ cs.length + value cs < Nat.pow 2 64) :
    gather n cs = (n * 10 ^ cs.length + value cs, cs.length) := by
  induction cs generalizing n with
  | nil => simp [gather, value]
  | cons c cs ih =>
    have hall : (10 * n + digitValue c) * 10 ^ cs.length + value cs =
        n * 10 ^ (c :: cs).length + value (c :: cs) := by
      rw [value_cons, List.length_cons, Nat.pow_succ]
      ring
    have hfirst : 10 * n + digitValue c < Nat.pow 2 64 := by
      have hle : (10 * n + digitValue c) * 1 ≤ (10 * n + digitValue c) * 10 ^ cs.length :=
        Nat.mul_le_mul_left _ (Nat.one_le_pow _ _ (by decide))
      omega
    rw [gather]
    dsimp only
    rw [if_pos hfirst, ih (hall ▸ h), hall, List.length_cons]

theorem exponentValue?_eq {negative : Bool} {ds : List Char} (h : value ds < Nat.pow 2 31) :
    exponentValue? negative ds = some (if negative then -(value ds : Int) else value ds) := by
  rw [exponentValue?]
  exact if_pos h

namespace Lexeme

/-- A lexeme with few digits is its digits, times its power of ten. -/
theorem float?_eq {l : Lexeme} (hdigits : Decimal.value l.digits < Nat.pow 2 64)
    (hexponent : ∀ e ∈ l.exponent, Decimal.value e.2 < Nat.pow 2 31) :
    l.float? = (scale? (Decimal.value l.digits) l.power).map (negate l.negative) := by
  have hjoined : Decimal.value l.whole * 10 ^ (l.fraction.getD []).length +
      Decimal.value (l.fraction.getD []) = Decimal.value l.digits := (value_append _ _).symm
  have hwhole : gather 0 l.whole = (Decimal.value l.whole, l.whole.length) := by
    have hzero : 0 * 10 ^ l.whole.length + Decimal.value l.whole = Decimal.value l.whole := by
      rw [Nat.zero_mul, Nat.zero_add]
    have hle : Decimal.value l.whole * 1 ≤
        Decimal.value l.whole * 10 ^ (l.fraction.getD []).length :=
      Nat.mul_le_mul_left _ (Nat.one_le_pow _ _ (by decide))
    rw [gather_eq (by omega), hzero]
  have hfraction : gather (Decimal.value l.whole) (l.fraction.getD []) =
      (Decimal.value l.digits, (l.fraction.getD []).length) := by
    rw [gather_eq (by omega), hjoined]
  have hshift : ((0 : Nat) : Int) - (l.fraction.getD []).length = -(l.fraction.getD []).length :=
    Int.zero_sub _
  unfold float? power shownPower
  simp only [hwhole, hfraction, Nat.sub_self, hshift]
  cases he : l.exponent with
  | none =>
    dsimp only
    rw [Int.zero_sub]
  | some e =>
    obtain ⟨negative, ds⟩ := e
    dsimp only
    rw [exponentValue?_eq (hexponent _ he), Int.sub_eq_add_neg, Int.add_comm]

end Lexeme

/-! ### Scales -/

theorem value?_powerOfTen {k : Nat} (hk : k ≤ 22) :
    Double.value? (powerOfTen k) = some ((10 : Rat) ^ k) := by
  have hrounds := Double.rounds_ofScientific 1 false k
  have hfactors : ((1 : Nat) : Rat) * 10 ^ (if false = true then -(k : Int) else (k : Int)) =
      ((5 ^ k : Nat) : Int) * 2 ^ (k : Int) := by
    rw [if_neg Bool.false_ne_true, zpow_natCast, zpow_natCast, Nat.cast_one, one_mul]
    push_cast
    rw [← mul_pow]
    norm_num
  have hsize : |((5 ^ k : Nat) : Int)| < 2 ^ 53 := by
    have hfive : 5 ^ k < 2 ^ 53 :=
      Nat.lt_of_le_of_lt (Nat.pow_le_pow_right (by decide) hk) (by decide)
    rw [Nat.abs_cast]
    exact_mod_cast hfive
  rw [hfactors] at hrounds
  rw [powerOfTen, hrounds.value_eq hsize (by omega) (by omega)]
  rw [← hfactors, if_neg Bool.false_ne_true, zpow_natCast, Nat.cast_one, one_mul]

/-- Digits and a power of ten that are doubles themselves are rounded once. -/
theorem scale?_exact {n : Nat} {e : Int} (hn : n < 2 ^ 53) (he : e.natAbs ≤ 22)
    (hsize : |(n * 10 ^ e : Rat)| < Double.overflowBound) :
    ∃ y v, scale? n e = some y ∧ Double.value? y = some v ∧ Double.Nearest (n * 10 ^ e) v := by
  have hx := Double.value?_ofNat hn
  have hpower := value?_powerOfTen he
  unfold scale?
  dsimp only
  split
  · next hpos =>
    have hnat : e.toNat = e.natAbs := by omega
    have hrounds := Double.rounds_mul hx hpower
    rw [← zpow_natCast, Int.natAbs_of_nonneg hpos] at hrounds
    obtain ⟨v, hv, hnear⟩ := hrounds.exists_nearest hsize
    have hfinite : (Float.ofNat n * powerOfTen e.natAbs).isFinite = true :=
      (Double.isFinite_iff _).mpr ⟨v, hv⟩
    refine ⟨_, v, ?_, hv, hnear⟩
    rw [if_pos (by omega), hnat, if_pos hfinite]
  · next hneg =>
    have hrounds := Double.rounds_div hx hpower (by positivity)
    have hpow : (10 : Rat) ^ e.natAbs = (10 ^ e)⁻¹ := by
      rw [← zpow_natCast, ← zpow_neg]
      congr 1
      omega
    rw [hpow, div_inv_eq_mul] at hrounds
    obtain ⟨v, hv, hnear⟩ := hrounds.exists_nearest hsize
    have hchunks : divideByPower (Float.ofNat n) e.natAbs =
        Float.ofNat n / powerOfTen e.natAbs := by
      have hzero : (e.natAbs - 1) / 308 = 0 := by omega
      rw [divideByPower, hzero]
      rfl
    exact ⟨_, v, by rw [hchunks], hv, hnear⟩

/-! ### Doubles -/

theorem reread?_zero {x : Float} {s : Float.Model.UnpackedFloat.Sign}
    (h : x.toModel.unpack = .zero s) : reread? x = some x := by
  cases s with
  | positive =>
    obtain rfl : x = 0 := Double.eq_of_unpack_zero h rfl
    decide +kernel
  | negative =>
    obtain rfl : x = -0 := Double.eq_of_unpack_zero h rfl
    decide +kernel

theorem value?_negate {y : Float} {v : Rat} (hy : Double.value? y = some v)
    (s : Float.Model.UnpackedFloat.Sign) :
    Double.value? (negate (s == .negative) y) = some (Double.factor s * v) := by
  cases s with
  | positive =>
    rw [Double.factor, one_mul]
    exact hy
  | negative =>
    rw [Double.factor, neg_one_mul]
    exact Double.value?_neg hy

theorem Lexeme.Means.exponent_lt {l : Lexeme} {n : Nat} {e : Int} (h : l.Means n e)
    (hdigits : Decimal.value l.digits < 2 ^ 53) (hpower : l.power.natAbs ≤ 22) :
    ∀ x ∈ l.exponent, Decimal.value x.2 < Nat.pow 2 31 := by
  intro x hx
  obtain hnone | hfull := h.full
  · rw [hnone] at hx
    cases hx
  have hlength : (l.fraction.getD []).length < 16 := by
    by_contra hlong
    have hlarge : 10 ^ 16 ≤ 10 ^ (l.fraction.getD []).length :=
      Nat.pow_le_pow_right (by decide) (not_lt.mp hlong)
    omega
  have hshown : l.shownPower.natAbs = Decimal.value x.2 := by
    unfold shownPower
    rw [Option.mem_def.mp hx]
    dsimp only
    split <;> omega
  unfold power at hpower
  show Decimal.value x.2 < 2 ^ 31
  omega

/-- A double is found again if its digits, as a whole number, make less than `2 ^ 53` and stand over
or under a power of ten up to `10 ^ 22`. -/
theorem reread?_of_exact {x : Float} {a : Rat} (hx : Double.value? x = some a) {l : Lexeme}
    (hl : lexeme? (floatText x) = some l) (hdigits : value l.digits < 2 ^ 53)
    (hpower : l.power.natAbs ≤ 22) : reread? x = some x := by
  obtain ⟨l', s, n, e, hnegative, hmeans, htext, hzero | ⟨ha, hnear⟩⟩ := floatText_lexeme hx
  · exact reread?_zero hzero
  obtain rfl : l' = l := by
    rw [htext, lexeme?_text hmeans.proper] at hl
    exact Option.some.inj hl
  have hsize : |(value l'.digits * 10 ^ l'.power : Rat)| < Double.overflowBound := by
    have hbound := hnear.lt_overflowBound (Double.abs_le_of_value? hx)
    rwa [abs_mul, Double.abs_factor, one_mul, ← hmeans.value_eq] at hbound
  obtain ⟨y, v, hscale, hy, hnearest⟩ := scale?_exact hdigits hpower hsize
  have hfloat : l'.float? = some (negate (s == .negative) y) := by
    rw [Lexeme.float?_eq (Nat.lt_trans hdigits (by decide)) (hmeans.exponent_lt hdigits hpower),
      hscale, hnegative]
    rfl
  have hsame : Double.factor s * v = a := by
    rw [hmeans.value_eq] at hnearest
    exact (hnearest.factor s).unique hnear
  have hread := value?_negate hy s
  rw [hsame] at hread
  rw [reread?, hl, Option.bind_some, hfloat, Double.eq_of_value? hread hx ha]

/-- The digits that are written for a double, and their power of ten, are doubles themselves. -/
def IsExact (x : Float) : Bool :=
  match lexeme? (floatText x) with
  | some l => value l.digits < Nat.pow 2 53 && l.power.natAbs ≤ 22
  | none => false

theorem reread?_of_isExact {x : Float} {a : Rat} (hx : Double.value? x = some a)
    (h : IsExact x = true) : reread? x = some x := by
  unfold IsExact at h
  cases hl : lexeme? (floatText x) with
  | none => rw [hl] at h; cases h
  | some l =>
    rw [hl, Bool.and_eq_true, decide_eq_true_eq, decide_eq_true_eq] at h
    exact reread?_of_exact hx hl h.1 h.2

end BasRelief.Document.Json
