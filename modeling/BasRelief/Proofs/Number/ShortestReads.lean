import BasRelief.Proofs.Decimal.ShortestInside
import BasRelief.Proofs.Number.Identity
import BasRelief.Proofs.Number.Numerals

/-!
# The shortest decimal of a double reads back

The interval of a double holds only fractions that are nearest to it, and it is wide enough for
the search. So every numeral with the value of the shortest decimal is read as the double.
-/

namespace BasRelief.Double
open Float.Model Float.Model.UnpackedFloat Decimal

/-! ### The interval of a double -/

theorem ofBinary_bounds (m : Nat) (e : Int) (b : Bool) :
    ((Interval.ofBinary m e b).low : Rat) / (Interval.ofBinary m e b).den =
        ((4 * m - (if b then 1 else 2) : Nat) : Rat) / 4 * 2 ^ e ∧
      ((Interval.ofBinary m e b).value : Rat) / (Interval.ofBinary m e b).den = m * 2 ^ e ∧
      ((Interval.ofBinary m e b).high : Rat) / (Interval.ofBinary m e b).den =
        (m + 1 / 2) * 2 ^ e := by
  have hpow (n : Nat) : Nat.pow 2 n = 2 ^ n := rfl
  unfold Interval.ofBinary
  dsimp only
  generalize 4 * m - (if b then 1 else 2) = low
  split
  · obtain ⟨n, rfl⟩ := Int.eq_ofNat_of_zero_le ‹0 ≤ e›
    simp only [Int.toNat_natCast, hpow, Nat.cast_mul, Nat.cast_add, Nat.cast_pow, Nat.cast_ofNat,
      zpow_natCast]
    refine ⟨?_, ?_, ?_⟩ <;> ring
  · obtain ⟨n, rfl⟩ : ∃ n : Nat, e = -n := ⟨(-e).toNat, by omega⟩
    simp only [neg_neg, Int.toNat_natCast, hpow, Nat.cast_mul, Nat.cast_add, Nat.cast_pow,
      Nat.cast_ofNat, Nat.cast_one, zpow_neg, zpow_natCast]
    refine ⟨by field_simp, by field_simp, ?_⟩
    field_simp
    ring

theorem ofBinary_proper {m : Nat} (hm : 0 < m) (e : Int) (b : Bool) :
    (Interval.ofBinary m e b).Proper := by
  have hpow (n : Nat) : 0 < Nat.pow 2 n := Nat.two_pow_pos n
  have hscale : 0 < (if 0 ≤ e then Nat.pow 2 e.toNat else 1) := by
    split
    · exact hpow _
    · exact Nat.one_pos
  constructor
  · show 0 < (if 0 ≤ e then 4 else 4 * Nat.pow 2 (-e).toNat)
    split
    · decide
    · exact Nat.mul_pos (by decide) (hpow _)
  · apply Nat.mul_lt_mul_of_pos_right _ hscale
    split <;> omega
  · exact Nat.mul_lt_mul_of_pos_right (by omega) hscale

/-! ### Fractions in the interval -/

/-- Above the double, and below it where the gap on both sides is the same. -/
theorem nearest_of_half {m : Nat} {e : Int} (h : Canonical m e) {q : Rat}
    (hnear : |q - m * 2 ^ e| ≤ 2 ^ e / 2) (htie : |q - m * 2 ^ e| = 2 ^ e / 2 → m % 2 = 0)
    (hfull : e = -1074 ∨ 2 ^ 52 * 2 ^ e ≤ q) : Nearest q (m * 2 ^ e) := by
  have hpos : (0 : Rat) < 2 ^ e := zpow_pos two_pos e
  obtain ⟨hlow, hhigh⟩ := abs_le.mp hnear
  have hmantissa : (m : Rat) + 1 ≤ 2 ^ 53 := by exact_mod_cast Nat.succ_le_of_lt h.bound
  have hproduct : (m + 1 : Rat) * 2 ^ e ≤ 2 ^ 53 * 2 ^ e :=
    mul_le_mul_of_nonneg_right hmantissa hpos.le
  have hupper : q < 2 ^ 53 * 2 ^ e := by linarith
  have hlower : -(2 ^ 53 * 2 ^ e) < q := by
    have hm : (0 : Rat) ≤ m * 2 ^ e := by positivity
    have hlarge : (2 : Rat) ^ e ≤ 2 ^ 53 * 2 ^ e := le_mul_of_one_le_left hpos.le (by norm_num)
    linarith
  have hplace : LastPlace q e := by
    refine ⟨h.least, ?_, abs_lt.mpr ⟨hlower, hupper⟩⟩
    obtain hleast | hfull := hfull
    · exact .inl hleast
    · exact .inr (hfull.trans (le_abs_self q))
  have hunits := Nearest.units e m hplace (by rwa [Int.cast_natCast]) fun hhalf => by
    rw [Int.cast_natCast] at hhalf
    rw [Int.even_coe_nat, Nat.even_iff]
    exact htie hhalf
  rwa [Int.cast_natCast] at hunits

theorem stepChanges_iff {m : Nat} {e : Int} : stepChanges m e = true ↔ m = 2 ^ 52 ∧ -1074 < e := by
  have hpow : Nat.pow 2 52 = 2 ^ 52 := rfl
  rw [stepChanges, Bool.and_eq_true, decide_eq_true_eq, decide_eq_true_eq, hpow]

theorem nearest_of_contains {m : Nat} {e : Int} (hm : 0 < m) (h : Canonical m e) {q : Rat}
    (hq : (Interval.ofBinary m e (stepChanges m e)).Contains q) : Nearest q (m * 2 ^ e) := by
  have hpos : (0 : Rat) < 2 ^ e := zpow_pos two_pos e
  obtain ⟨hlowEq, _, hhighEq⟩ := ofBinary_bounds m e (stepChanges m e)
  have hbounds := hq.bounds
  rw [hlowEq, hhighEq] at hbounds
  -- an odd mantissa leaves the bounds out
  have hstrict : m % 2 ≠ 0 → ((4 * m - (if stepChanges m e then 1 else 2) : Nat) : Rat) / 4 * 2 ^ e
      < q ∧ q < (m + 1 / 2) * 2 ^ e := by
    intro hodd
    have hopen : (Interval.ofBinary m e (stepChanges m e)).closed = false := decide_eq_false hodd
    rwa [Interval.Contains, hopen, if_neg Bool.false_ne_true, hlowEq, hhighEq] at hq
  cases hstep : stepChanges m e with
  | true =>
    obtain ⟨rfl, he⟩ := stepChanges_iff.mp hstep
    have hlow : ((4 * 2 ^ 52 - 1 : Nat) : Rat) / 4 * 2 ^ e = (2 ^ 52 - 1 / 4) * 2 ^ e := by
      norm_num
    have hlead : (((2 ^ 52 : Nat) : Rat)) = 2 ^ 52 := by norm_num
    rw [hstep, if_pos rfl, hlow, hlead] at hbounds
    obtain hbelow | habove := lt_or_ge q (2 ^ 52 * 2 ^ e)
    · rw [hlead]
      exact nearest_below_lead he hbounds.1 hbelow
    · apply nearest_of_half h _ (fun _ => by decide) (.inr habove)
      rw [hlead, abs_of_nonneg (sub_nonneg.mpr habove)]
      linarith
  | false =>
    rw [hstep, if_neg Bool.false_ne_true] at hbounds hstrict
    have hcast : ((4 * m - 2 : Nat) : Rat) = 4 * m - 2 := by
      rw [Nat.cast_sub (by omega)]
      push_cast
      rfl
    have hlow : ((4 * m - 2 : Nat) : Rat) / 4 * 2 ^ e = (m - 1 / 2) * 2 ^ e := by
      rw [hcast]
      ring
    rw [hlow] at hbounds hstrict
    refine nearest_of_half h ?near ?tie ?full
    case near =>
      rw [abs_le]
      constructor <;> linarith
    case tie =>
      intro htie
      by_contra hodd
      obtain ⟨hlow, hhigh⟩ := hstrict hodd
      have hlt : |q - m * 2 ^ e| < 2 ^ e / 2 := by
        rw [abs_lt]
        constructor <;> linarith
      exact hlt.ne htie
    case full =>
      obtain hleast | hgreater := h.least.eq_or_lt
      · exact .inl hleast.symm
      · right
        have hlead : 2 ^ 52 + 1 ≤ m := by
          have hne : m ≠ 2 ^ 52 := fun heq => by
            rw [stepChanges_iff.mpr ⟨heq, hgreater⟩] at hstep
            cases hstep
          have hfull := h.full
          omega
        have hlead' : (2 : Rat) ^ 52 + 1 ≤ m := by exact_mod_cast hlead
        have hproduct : ((2 : Rat) ^ 52 + 1) * 2 ^ e ≤ m * 2 ^ e :=
          mul_le_mul_of_nonneg_right hlead' hpos.le
        linarith

/-- Seventeen digits are enough: the eighteenth grid is finer than the interval is wide. -/
theorem wide_topPlace {m : Nat} {e : Int} (hm : 0 < m) (h : Canonical m e) :
    (Interval.ofBinary m e (stepChanges m e)).Wide
      ((Interval.ofBinary m e (stepChanges m e)).topPlace - 18) := by
  have hpos : (0 : Rat) < 2 ^ e := zpow_pos two_pos e
  obtain ⟨hden, hlow, hhigh⟩ := ofBinary_proper hm e (stepChanges m e)
  obtain ⟨hlowEq, hvalueEq, hhighEq⟩ := ofBinary_bounds m e (stepChanges m e)
  have htop := Interval.pow_topPlace_le hden (Nat.zero_lt_of_lt hlow)
  rw [hvalueEq] at htop
  have hmantissa : (m : Rat) < 2 ^ 53 := by exact_mod_cast h.bound
  have hwidth : (3 / 4 : Rat) * 2 ^ e ≤ (m + 1 / 2) * 2 ^ e -
      ((4 * m - (if stepChanges m e then 1 else 2) : Nat) : Rat) / 4 * 2 ^ e := by
    have hbelow : ((4 * m - (if stepChanges m e then 1 else 2) : Nat) : Rat) ≤ 4 * m - 1 := by
      have hle : 4 * m - (if stepChanges m e then 1 else 2) + 1 ≤ 4 * m := by
        split <;> omega
      have hcast : ((4 * m - (if stepChanges m e then 1 else 2) : Nat) : Rat) + 1 ≤ 4 * m := by
        exact_mod_cast hle
      linarith
    have hproduct := mul_le_mul_of_nonneg_right hbelow hpos.le
    linarith
  unfold Interval.Wide
  rw [hlowEq, hhighEq, zpow_sub₀ (by norm_num)]
  refine lt_of_lt_of_le ?_ hwidth
  have hgrid : (10 : Rat) ^ (18 : Int) = 10 ^ 18 := by norm_num
  rw [hgrid, div_lt_iff₀ (by norm_num)]
  calc (10 : Rat) ^ (Interval.ofBinary m e (stepChanges m e)).topPlace ≤ m * 2 ^ e := htop
    _ < 2 ^ 53 * 2 ^ e := mul_lt_mul_of_pos_right hmantissa hpos
    _ ≤ 3 / 4 * 2 ^ e * 10 ^ 18 := by linarith

/-- Nineteen digits and a half are too few for a word of 64 bits. -/
theorem shortest_lt (tie : Tie) {m : Nat} {e : Int} (hm : 0 < m) (h : Canonical m e) :
    (shortest tie m e).1 < 2 ^ 64 := by
  have hproper := ofBinary_proper hm e (stepChanges m e)
  obtain ⟨-, hvalueEq, hhighEq⟩ := ofBinary_bounds m e (stepChanges m e)
  have hinside := (contains_shortest hproper tie (wide_topPlace hm h)).bounds.2
  have hplace := le_shortest tie (Interval.ofBinary m e (stepChanges m e))
  have htop := Interval.value_le_pow_topPlace hproper.den_pos (Nat.zero_lt_of_lt hproper.low_lt)
  rw [shortest, if_neg hm.ne']
  generalize Interval.topPlace _ = top at hplace htop
  generalize Decimal.shortest tie _ = d at hplace hinside ⊢
  rw [hvalueEq] at htop
  rw [hhighEq] at hinside
  have hone : (1 : Rat) ≤ m := by exact_mod_cast hm
  have hgrid : (10 : Rat) ^ (top + 1) ≤ 10 ^ 19 * 10 ^ d.2 := by
    have hsplit : (10 : Rat) ^ 19 * 10 ^ d.2 = 10 ^ (19 + d.2) := by
      rw [zpow_add₀ (by norm_num)]
      rfl
    rw [hsplit]
    exact zpow_le_zpow_right₀ (by norm_num) (by omega)
  have hsize : (d.1 : Rat) * 10 ^ d.2 ≤ 3 / 2 * 10 ^ 19 * 10 ^ d.2 := by
    have hpos : (0 : Rat) < 2 ^ e := zpow_pos two_pos e
    have hhalf : (1 / 2 : Rat) * 2 ^ e ≤ 1 / 2 * (m * 2 ^ e) := by
      have hmul := mul_le_mul_of_nonneg_right hone hpos.le
      linarith
    linarith
  have hdigits := le_of_mul_le_mul_right hsize (zpow_pos (by norm_num) d.2)
  have hcast : (d.1 : Rat) < (2 ^ 64 : Nat) := hdigits.trans_lt (by norm_num)
  exact_mod_cast hcast

/-! ### Reading -/

/-- The decimal that is written for a mantissa is positive and nearest to the double. -/
theorem nearest_shortest (tie : Tie) {m : Nat} {e : Int} (hm : 0 < m) (h : Canonical m e) :
    0 < (shortest tie m e).1 ∧
      Nearest ((shortest tie m e).1 * 10 ^ (shortest tie m e).2) (m * 2 ^ e) := by
  have hproper := ofBinary_proper hm e (stepChanges m e)
  have hinside := contains_shortest hproper tie (wide_topPlace hm h)
  rw [shortest, if_neg hm.ne']
  refine ⟨Nat.pos_of_ne_zero fun hzero => ?_, nearest_of_contains hm h hinside⟩
  have hbounds := hinside.bounds
  obtain ⟨hlowEq, _, _⟩ := ofBinary_bounds m e (stepChanges m e)
  rw [hlowEq, hzero, Nat.cast_zero, zero_mul] at hbounds
  have hlow : 0 < 4 * m - (if stepChanges m e then 1 else 2) := by
    split <;> omega
  have hlow' : (0 : Rat) < ((4 * m - (if stepChanges m e then 1 else 2) : Nat) : Rat) / 4 * 2 ^ e :=
    mul_pos (div_pos (Nat.cast_pos.mpr hlow) (by norm_num)) (zpow_pos two_pos e)
  exact absurd hbounds.1 (not_le.mpr hlow')

/-- A double with a value is a zero, or the decimal that is written for its mantissa is nearest
to it. -/
theorem zero_or_nearest_shortest (tie : Tie) {x : Float} {a : Rat} (hx : value? x = some a) :
    (∃ s, x.toModel.unpack = .zero s) ∨
      ∃ s m e hm, x.toModel.unpack = .finite s m e hm ∧ a ≠ 0 ∧ 0 < (shortest tie m e).1 ∧
        Nearest (factor s * ((shortest tie m e).1 * 10 ^ (shortest tie m e).2)) a := by
  have hvalue := hasValue_unpack hx
  generalize x.toModel.unpack = f at hvalue ⊢
  cases hvalue with
  | zero s => exact .inl ⟨s, rfl⟩
  | @finite s m e hm canonical ha =>
    obtain ⟨hpos, hnear⟩ := nearest_shortest tie hm canonical
    have hsize : (0 : Rat) < |a| := by
      rw [ha, abs_dyadic]
      exact mul_pos (Nat.cast_pos.mpr hm) (zpow_pos two_pos e)
    exact .inr ⟨s, m, e, hm, rfl, abs_pos.mp hsize, hpos, ha ▸ hnear.factor s⟩

/-- A numeral that is nearest to a double is read as it. -/
theorem ofNumeral_eq_of_nearest {x : Float} {a : Rat} (hx : value? x = some a) (ha : a ≠ 0)
    {n : Numeral} (hn : Nearest n.toRat a) : ofNumeral n = x := by
  obtain ⟨v, hv, hnear⟩ :=
    (rounds_numeral n).exists_nearest (hn.lt_overflowBound (abs_le_of_value? hx))
  obtain rfl := hnear.unique hn
  exact eq_of_value? hv hx ha

theorem toRat_factor (s : Sign) (n : Nat) (e : Int) :
    Numeral.toRat ⟨s == .negative, n, e⟩ = factor s * (n * 10 ^ e) := by
  cases s with
  | negative =>
    show -((n : Rat) * 10 ^ e) = _
    rw [factor, neg_one_mul]
  | positive =>
    show (n : Rat) * 10 ^ e = _
    rw [factor, one_mul]

/-- The zeros are read with their sign. -/
theorem ofNumeral_zero (s : Sign) : (ofNumeral ⟨s == .negative, 0, -1⟩).toModel.unpack = .zero s := by
  cases s <;> rfl

end BasRelief.Double
