import BasRelief.Proofs.Number.LowerBound
import BasRelief.Proofs.Number.Monotone
import BasRelief.Proofs.Number.Numerals

/-!
# Staying in range

A result is finite only if its operands were. Conversely, powers of two bound the size of sums,
differences, products, roots and quotients as long as they stay below `2 ^ 1024`; and a sum does
not leave the range when something below half a unit of the greatest double is added to it.
-/

namespace BasRelief.Double
open Float.Model Float.Model.UnpackedFloat

/-! ### What a finite result says of its operands -/

theorem isFinite_of_pack {f : UnpackedFloat}
    (h : Scalar.isFinite (Float.ofModel (.pack f)) = true) : f.isFinite = true := by
  have hpacked : (Float.Model.pack f).unpack.isFinite = true := h
  cases f with
  | notANumber => rw [unpack_pack_notANumber] at hpacked; cases hpacked
  | infinity s => rw [unpack_pack_infinity] at hpacked; cases hpacked
  | zero s => rfl
  | finite s m e hm => rfl

theorem isFinite_of_add {x y : Float} (h : Scalar.isFinite (x + y) = true) :
    Scalar.isFinite x = true ∧ Scalar.isFinite y = true := by
  have key {f g : UnpackedFloat} (h : (UnpackedFloat.add Format.binary64 f g).isFinite = true) :
      f.isFinite = true ∧ g.isFinite = true := by
    cases f with
    | notANumber => cases h
    | infinity s =>
      cases g with
      | infinity t =>
        cases s <;> cases t <;> cases h
      | _ => cases h
    | zero s =>
      cases g with
      | notANumber | infinity t => cases h
      | _ => exact ⟨rfl, rfl⟩
    | finite s m e hm =>
      cases g with
      | notANumber | infinity t => cases h
      | _ => exact ⟨rfl, rfl⟩
  rw [add_eq_pack] at h
  exact key (isFinite_of_pack h)

theorem isFinite_of_div {x y : Float} (h : Scalar.isFinite (x / y) = true) :
    Scalar.isFinite x = true := by
  have key {f g : UnpackedFloat} (h : (UnpackedFloat.div Format.binary64 f g).isFinite = true) :
      f.isFinite = true := by
    cases f with
    | notANumber => cases h
    | infinity s => cases g <;> cases h
    | zero s => rfl
    | finite s m e hm => rfl
  rw [div_eq_pack] at h
  exact key (isFinite_of_pack h)

/-! ### Sizes -/

/-- A double of at most a given size. -/
def Within (b : Rat) (x : Float) : Prop := ∃ a, value? x = some a ∧ |a| ≤ b

instance (b : Rat) (x : Float) : Decidable (Within b x) :=
  decidable_of_iff (∃ a ∈ value? x, |a| ≤ b) Iff.rfl

theorem Within.isFinite {b : Rat} {x : Float} (h : Within b x) : Scalar.isFinite x = true := by
  obtain ⟨a, ha, -⟩ := h
  exact (isFinite_iff x).2 ⟨a, ha⟩

theorem Within.mono {b c : Rat} {x : Float} (h : Within b x) (hbc : b ≤ c) : Within c x := by
  obtain ⟨a, ha, hsize⟩ := h
  exact ⟨a, ha, hsize.trans hbc⟩

theorem within_zero {b : Rat} (hb : 0 ≤ b) : Within b Scalar.zero :=
  ⟨0, value?_zero, by rwa [abs_zero]⟩

theorem nearest_two_zpow {n : Int} (hn : -1022 ≤ n) : Nearest (2 ^ n) (2 ^ n) := by
  have hcanonical : Canonical (2 ^ 52) (n - 52) := ⟨by omega, by norm_num, .inl le_rfl⟩
  have hpower : ((2 ^ 52 : Nat) * 2 ^ (n - 52) : Rat) = 2 ^ n := by
    have hsplit : (2 : Rat) ^ n = 2 ^ (52 + (n - 52)) := by rw [add_sub_cancel]
    rw [hsplit, zpow_add₀ two_ne_zero]
    push_cast
    rfl
  have hnear := Nearest.of_canonical hcanonical
  rwa [hpower] at hnear

theorem two_zpow_lt_overflowBound {n : Int} (hn : n ≤ 1023) : (2 : Rat) ^ n < overflowBound := by
  have hle : (2 : Rat) ^ n ≤ 2 ^ (1023 : Int) := zpow_le_zpow_right₀ one_le_two hn
  refine hle.trans_lt ?_
  unfold overflowBound
  decide +kernel

/-- Rounding does not pass a power of two. -/
theorem Rounds.within {x : Float} {q : Rat} {n : Int} (h : Rounds x q) (hlow : -1022 ≤ n)
    (hhigh : n ≤ 1023) (hq : |q| ≤ 2 ^ n) : Within (2 ^ n) x := by
  obtain ⟨v, hv, hnear⟩ := h.exists_nearest (hq.trans_lt (two_zpow_lt_overflowBound hhigh))
  exact ⟨v, hv, hnear.abs.mono (nearest_two_zpow hlow) hq⟩

section Operations
variable {x y : Float} {m n : Int}

theorem Within.add (hx : Within (2 ^ n) x) (hy : Within (2 ^ n) y) (hlow : -1022 ≤ n)
    (hhigh : n < 1023) : Within (2 ^ (n + 1)) (x + y) := by
  obtain ⟨a, ha, hsize⟩ := hx
  obtain ⟨b, hb, hsize'⟩ := hy
  refine (rounds_add ha hb).within (by omega) (by omega) ?_
  rw [zpow_add_one₀ two_ne_zero]
  have htriangle := abs_add_le a b
  linarith

theorem Within.sub (hx : Within (2 ^ n) x) (hy : Within (2 ^ n) y) (hlow : -1022 ≤ n)
    (hhigh : n < 1023) : Within (2 ^ (n + 1)) (x - y) := by
  obtain ⟨a, ha, hsize⟩ := hx
  obtain ⟨b, hb, hsize'⟩ := hy
  refine (rounds_sub ha hb).within (by omega) (by omega) ?_
  rw [zpow_add_one₀ two_ne_zero]
  have htriangle := abs_sub a b
  linarith

theorem Within.mul (hx : Within (2 ^ m) x) (hy : Within (2 ^ n) y) (hlow : -1022 ≤ m + n)
    (hhigh : m + n ≤ 1023) : Within (2 ^ (m + n)) (x * y) := by
  obtain ⟨a, ha, hsize⟩ := hx
  obtain ⟨b, hb, hsize'⟩ := hy
  refine (rounds_mul ha hb).within hlow hhigh ?_
  rw [abs_mul, zpow_add₀ two_ne_zero]
  gcongr

/-- A quotient by something that is not below a power of two. -/
theorem Within.div (hx : Within (2 ^ m) x) {b : Rat} (hy : value? y = some b) (hb : 2 ^ n ≤ b)
    (hlow : -1022 ≤ m - n) (hhigh : m - n ≤ 1023) : Within (2 ^ (m - n)) (x / y) := by
  obtain ⟨a, ha, hsize⟩ := hx
  have hb0 : 0 < b := lt_of_lt_of_le (zpow_pos two_pos n) hb
  refine (rounds_div ha hy hb0.ne').within hlow hhigh ?_
  rw [abs_div, abs_of_pos hb0, zpow_sub₀ two_ne_zero]
  gcongr

/-! ### Roots of sums of squares -/

/-- A double from zero up to a given size. -/
def UpTo (b : Rat) (x : Float) : Prop := ∃ a, value? x = some a ∧ 0 ≤ a ∧ a ≤ b

theorem UpTo.mono {b c : Rat} (h : UpTo b x) (hbc : b ≤ c) : UpTo c x := by
  obtain ⟨a, ha, h0, hsize⟩ := h
  exact ⟨a, ha, h0, hsize.trans hbc⟩

theorem UpTo.isFinite {b : Rat} (h : UpTo b x) : Scalar.isFinite x = true := by
  obtain ⟨a, ha, -⟩ := h
  exact (isFinite_iff x).2 ⟨a, ha⟩

theorem UpTo.less_zero {b : Rat} (h : UpTo b x) : Scalar.less x Scalar.zero = false := by
  obtain ⟨a, ha, h0, -⟩ := h
  exact Bool.of_not_eq_true (mt (less_iff ha value?_zero).1 (not_lt.2 h0))

theorem UpTo.less_bound {b : Rat} (h : UpTo b x) (hy : value? y = some b) :
    Scalar.less y x = false := by
  obtain ⟨a, ha, -, hsize⟩ := h
  exact Bool.of_not_eq_true (mt (less_iff hy ha).1 (not_lt.2 hsize))

/-- Rounding does not pass a double. -/
theorem Rounds.upTo {q b : Rat} (h : Rounds x q) (hy : value? y = some b) (hq : 0 ≤ q)
    (hqb : q ≤ b) : UpTo b x := by
  have hexact : Nearest b b := .of_value hy
  have hbound : |q| < overflowBound := by
    rw [abs_of_nonneg hq]
    exact (hqb.trans (le_abs_self b)).trans_lt (hexact.lt_overflowBound (abs_le_of_value? hy))
  obtain ⟨v, hv, hnear⟩ := h.exists_nearest hbound
  exact ⟨v, hv, hnear.nonneg hq, hnear.mono hexact hqb⟩

theorem Within.square (hx : Within (2 ^ n) x) (hlow : -511 ≤ n) (hhigh : n ≤ 511) :
    UpTo (2 ^ (n + n)) (x * x) := by
  obtain ⟨v, hv, hsize⟩ := Within.mul hx hx (by omega) (by omega)
  obtain ⟨a, ha, -⟩ := hx
  exact ⟨v, hv, ((rounds_mul ha ha).nearest hv).nonneg (mul_self_nonneg a),
    (le_abs_self v).trans hsize⟩

theorem UpTo.add (hx : UpTo (2 ^ n) x) (hy : UpTo (2 ^ n) y) (hlow : -1022 ≤ n)
    (hhigh : n < 1023) : UpTo (2 ^ (n + 1)) (x + y) := by
  obtain ⟨a, ha, ha0, hsize⟩ := hx
  obtain ⟨b, hb, hb0, hsize'⟩ := hy
  obtain ⟨v, hv, hsum⟩ := Within.add ⟨a, ha, (abs_of_nonneg ha0).trans_le hsize⟩
    ⟨b, hb, (abs_of_nonneg hb0).trans_le hsize'⟩ hlow hhigh
  exact ⟨v, hv, ((rounds_add ha hb).nearest hv).nonneg (add_nonneg ha0 hb0),
    (le_abs_self v).trans hsum⟩

theorem UpTo.root (hx : UpTo (2 ^ (n + n)) x) (hlow : -1023 ≤ n) (hhigh : n < 1023) :
    Within (2 ^ (n + 1)) (Scalar.root x) := by
  obtain ⟨a, ha, h0, hsize⟩ := hx
  obtain rfl | hpos := h0.eq_or_lt
  · exact ⟨0, value?_zero_root ha, by rw [abs_zero]; positivity⟩
  · obtain ⟨q, hq, -, hsquare, hrounds⟩ := rounds_root ha hpos
    refine hrounds.within (by omega) (by omega) ?_
    rw [abs_of_nonneg hq]
    refine abs_le_of_sq_le_sq' ?_ (by positivity) |>.2
    have hpower : ((2 : Rat) ^ (n + 1)) ^ 2 = 4 * 2 ^ (n + n) := by
      rw [zpow_add_one₀ two_ne_zero, zpow_add₀ two_ne_zero]
      ring
    rw [hpower, sq]
    linarith

/-- Half the exponents are out of reach of a root. -/
theorem within_root (h : Scalar.isFinite (Scalar.root x) = true) :
    Within (2 ^ (513 : Int)) (Scalar.root x) := by
  obtain ⟨a, ha, h0⟩ : ∃ a, value? x = some a ∧ 0 ≤ a := by
    rw [root_eq_pack] at h
    have hfinite := isFinite_of_pack h
    rw [value?_eq_rational?]
    generalize x.toModel.unpack = f at hfinite
    cases f with
    | notANumber => cases hfinite
    | infinity s => cases s <;> cases hfinite
    | zero s => exact ⟨0, rfl, le_rfl⟩
    | finite s m e hm =>
      cases s with
      | negative => cases hfinite
      | positive => exact ⟨dyadic .positive m e, rfl, by rw [dyadic_positive]; positivity⟩
  have hsize := ((le_abs_self a).trans (abs_le_of_value? ha)).trans greatestValue_lt.le
  exact UpTo.root (n := 512) ⟨a, ha, h0, hsize⟩ (by decide) (by decide)

end Operations

/-! ### Long sums -/

/-- What is below half a unit of the greatest double never carries a sum out of the range. -/
theorem isFinite_add_small {x y : Float} {n : Int} (hx : Scalar.isFinite x = true)
    (hy : Within (2 ^ n) y) (hn : n < 970) : Scalar.isFinite (x + y) = true := by
  obtain ⟨a, ha⟩ := (isFinite_iff x).1 hx
  obtain ⟨b, hb, hsize⟩ := hy
  rw [(rounds_add ha hb).isFinite_iff]
  have hlarge := abs_le_of_value? ha
  have hsmall : (2 : Rat) ^ n < 2 ^ (970 : Int) := zpow_lt_zpow_right₀ one_lt_two hn
  have hbound : overflowBound = greatestValue + 2 ^ (970 : Int) := by decide +kernel
  have htriangle := abs_add_le a b
  rw [hbound]
  linarith

/-- A mean is finite if the sum is. -/
theorem isFinite_mean {x : Float} (hx : Scalar.isFinite x = true) {n : Nat} (hn : 0 < n) :
    Scalar.isFinite (x / Scalar.natural n) = true := by
  obtain ⟨a, ha⟩ := (isFinite_iff x).1 hx
  have hcount : Rounds (Scalar.natural n : Float) n := by
    have hrounds := rounds_ofScientific n false 0
    simp only [Bool.false_eq_true, if_false, Nat.cast_zero, zpow_zero, mul_one] at hrounds
    exact hrounds
  cases hcount with
  | @finite v hvalue near =>
    have hone : 1 ≤ v := by
      have hnear : Nearest (2 ^ (0 : Int)) (2 ^ (0 : Int)) := nearest_two_zpow (by decide)
      rw [zpow_zero] at hnear
      exact hnear.mono near (mod_cast hn)
    have hv0 : 0 < v := by linarith
    rw [(rounds_div ha hvalue hv0.ne').isFinite_iff, abs_div, abs_of_pos hv0]
    have hle : |a| / v ≤ |a| := div_le_self (abs_nonneg a) hone
    exact hle.trans_lt ((Nearest.of_value ha).lt_overflowBound (abs_le_of_value? ha))
  | overflow infinite sign large =>
    rw [div_eq_pack, infinite]
    have hvalue := hasValue_unpack ha
    generalize x.toModel.unpack = f at hvalue
    cases hvalue with
    | zero s h => exact (isFinite_iff _).2 ⟨0, (rounds_zero _).value_zero⟩
    | finite canonical h => exact (isFinite_iff _).2 ⟨0, (rounds_zero _).value_zero⟩

end BasRelief.Double
