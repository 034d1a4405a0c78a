import BasRelief.Proofs.Number.Monotone

/-!
# Lower bounds that rounding keeps

A result that is not too small loses less than half of itself by rounding, and one that becomes
infinite loses nothing. So a lower bound passes, halved, through sums of what is not negative,
through squares, roots and quotients.
-/

namespace BasRelief.Double
open Float.Model Float.Model.UnpackedFloat

/-! ### Lower bounds -/

/-- Not below a given size; it may be infinite. -/
inductive AtLeast (c : Rat) (x : Float) : Prop where
  | finite {a : Rat} (value : value? x = some a) (le : c ≤ a)
  | infinite (h : x.toModel.unpack = .infinity .positive)

theorem positive_of_factor_mul {q : Rat} {s : Sign} (hs : 0 < factor s * q) (hq : 0 ≤ q) :
    s = .positive := by
  cases s with
  | positive => rfl
  | negative =>
    rw [factor, neg_one_mul, neg_pos] at hs
    exact absurd hs (not_lt.mpr hq)

/-- Rounding takes away less than half. -/
theorem Rounds.atLeast {x : Float} {q c : Rat} (h : Rounds x q) (hc : 2 ^ (-1022 : Int) ≤ c)
    (hq : c ≤ q) : AtLeast (c / 2) x := by
  have hq0 : 0 ≤ q := le_trans (le_trans (zpow_pos two_pos _).le hc) hq
  cases h with
  | finite hvalue near =>
    have herror := near.abs_sub_le (.inr (by rw [abs_of_nonneg hq0]; exact hc.trans hq))
    rw [abs_of_nonneg hq0] at herror
    refine .finite hvalue ?_
    have hhigh := (abs_le.mp herror).2
    linarith
  | overflow infinite sign large =>
    obtain rfl := positive_of_factor_mul sign hq0
    exact .infinite infinite

theorem AtLeast.mono {x : Float} {c d : Rat} (h : AtLeast c x) (hd : d ≤ c) : AtLeast d x := by
  cases h with
  | finite hvalue hle => exact .finite hvalue (hd.trans hle)
  | infinite h => exact .infinite h

/-! ### Large results -/

/-- From half a unit below a power of two on, a result is rounded to the power or beyond. -/
theorem Rounds.atLeast_lead {x : Float} {q : Rat} {e : Int} (h : Rounds x q) (he : -1074 < e)
    (hq : (2 ^ 52 - 1 / 4) * 2 ^ e ≤ q) : AtLeast (2 ^ 52 * 2 ^ e) x := by
  have hpos : (0 : Rat) < 2 ^ e := zpow_pos two_pos e
  have hlow : (0 : Rat) ≤ (2 ^ 52 - 1 / 4) * 2 ^ e := mul_nonneg (by norm_num) hpos.le
  cases h with
  | finite hvalue near =>
    have hlead : Nearest ((2 ^ 52 - 1 / 4) * 2 ^ e) (2 ^ 52 * 2 ^ e) :=
      nearest_below_lead he le_rfl (by linarith)
    exact .finite hvalue (hlead.mono near hq)
  | overflow infinite sign large =>
    obtain rfl := positive_of_factor_mul sign (hlow.trans hq)
    exact .infinite infinite

theorem unpack_sub_infinite {x y : Float} {b : Rat} (hx : x.toModel.unpack = .infinity .positive)
    (hy : value? y = some b) : (x - y).toModel.unpack = .infinity .positive := by
  have hvalue := hasValue_unpack hy
  have hinfinite : UnpackedFloat.sub Format.binary64 x.toModel.unpack y.toModel.unpack =
      .infinity .positive := by
    rw [hx]
    generalize y.toModel.unpack = g at hvalue
    cases hvalue <;> rfl
  show (Float.ofModel (.pack (UnpackedFloat.sub Format.binary64 x.toModel.unpack
    y.toModel.unpack))).toModel.unpack = _
  rw [hinfinite]
  exact unpack_pack_infinity .positive

/-- Less than half a unit taken from a power of two is lost in the rounding. -/
theorem AtLeast.sub_small {x y : Float} {b : Rat} {e : Int} (hx : AtLeast (2 ^ 52 * 2 ^ e) x)
    (hy : value? y = some b) (he : -1074 < e) (hb : b ≤ 1 / 4 * 2 ^ e) :
    AtLeast (2 ^ 52 * 2 ^ e) (x - y) := by
  cases hx with
  | finite hvalue hle => exact (rounds_sub hvalue hy).atLeast_lead he (by linarith)
  | infinite h => exact .infinite (unpack_sub_infinite h hy)

/-! ### Sums -/

theorem unpack_add_infinite {x y : Float} {c d : Rat} (hx : AtLeast c x) (hy : AtLeast d y)
    (h : x.toModel.unpack = .infinity .positive ∨ y.toModel.unpack = .infinity .positive) :
    (x + y).toModel.unpack = .infinity .positive := by
  have hcases {x : Float} {c : Rat} (hx : AtLeast c x) :
      x.toModel.unpack = .infinity .positive ∨ ∃ a, HasValue a x.toModel.unpack := by
    cases hx with
    | finite hvalue _ => exact .inr ⟨_, hasValue_unpack hvalue⟩
    | infinite h => exact .inl h
  have hinfinite : UnpackedFloat.add Format.binary64 x.toModel.unpack y.toModel.unpack =
      .infinity .positive := by
    obtain hx | hy := h
    · rw [hx]
      obtain hy | ⟨b, hb⟩ := hcases hy
      · rw [hy]
        rfl
      · generalize y.toModel.unpack = g at hb
        cases hb <;> rfl
    · rw [hy]
      obtain hx | ⟨a, ha⟩ := hcases hx
      · rw [hx]
        rfl
      · generalize x.toModel.unpack = f at ha
        cases ha <;> rfl
  rw [add_eq_pack, hinfinite]
  exact unpack_pack_infinity .positive

theorem AtLeast.add {x y : Float} {c d : Rat} (hx : AtLeast c x) (hy : AtLeast d y)
    (hc : 2 ^ (-1022 : Int) ≤ c + d) : AtLeast ((c + d) / 2) (x + y) := by
  cases hx with
  | infinite h => exact .infinite (unpack_add_infinite (.infinite (c := c) h) hy (.inl h))
  | finite hvalue hle =>
    cases hy with
    | infinite h =>
      exact .infinite (unpack_add_infinite (.finite hvalue hle) (.infinite (c := d) h) (.inr h))
    | finite hvalue' hle' => exact (rounds_add hvalue hvalue').atLeast hc (add_le_add hle hle')

/-! ### Squares of differences -/

theorem Rounds.value_zero {x : Float} (h : Rounds x 0) : value? x = some 0 := by
  cases h with
  | finite hvalue near => rw [hvalue, near.eq_zero]
  | overflow infinite sign large =>
    rw [mul_zero] at sign
    exact absurd sign (lt_irrefl 0)

theorem unpack_square_infinite {x : Float} {s : Sign} (h : x.toModel.unpack = .infinity s) :
    (x * x).toModel.unpack = .infinity .positive := by
  have hinfinite : UnpackedFloat.mul Format.binary64 (.infinity s) (.infinity s) =
      .infinity .positive := by
    cases s <;> rfl
  rw [mul_eq_pack, h, hinfinite]
  exact unpack_pack_infinity .positive

theorem value?_square_eq {x y : Float} {a : Rat} (hx : value? x = some a) (hy : value? y = some a) :
    value? ((x - y) * (x - y)) = some 0 := by
  have hsub := rounds_sub hx hy
  rw [sub_self] at hsub
  have hmul := rounds_mul hsub.value_zero hsub.value_zero
  rw [mul_zero] at hmul
  exact hmul.value_zero

theorem atLeast_square {x y : Float} {a b c : Rat} (hx : value? x = some a) (hy : value? y = some b)
    (hc : 2 ^ (-500 : Int) ≤ c) (h : c ≤ |a - b|) : AtLeast (c * c / 8) ((x - y) * (x - y)) := by
  have hc0 : 0 ≤ c := le_trans (zpow_pos two_pos _).le hc
  cases rounds_sub hx hy with
  | @finite d hvalue near =>
    have hnormal : IsNormal (a - b) := by
      have hleast : (2 : Rat) ^ (-1022 : Int) ≤ 2 ^ (-500 : Int) :=
        zpow_le_zpow_right₀ one_le_two (by decide)
      exact .inr ((hleast.trans hc).trans h)
    have hhalf : c / 2 ≤ |d| := by
      have herror := near.abs_sub_le hnormal
      have htriangle := abs_sub_abs_le_abs_sub (a - b) d
      linarith
    have hsquare : c * c / 4 ≤ d * d := by
      rw [← abs_mul_abs_self d]
      calc c * c / 4 = c / 2 * (c / 2) := by ring
        _ ≤ |d| * |d| := mul_le_mul hhalf hhalf (by linarith) (abs_nonneg d)
    have hleast : (2 : Rat) ^ (-1022 : Int) ≤ c * c / 4 := by
      calc (2 : Rat) ^ (-1022 : Int) ≤ 2 ^ (-500 : Int) * 2 ^ (-500 : Int) / 4 := by decide +kernel
        _ ≤ c * c / 4 := by gcongr
    have hproduct := (rounds_mul hvalue hvalue).atLeast hleast hsquare
    have heighth : c * c / 4 / 2 = c * c / 8 := by ring
    rwa [heighth] at hproduct
  | overflow infinite _ _ => exact .infinite (unpack_square_infinite infinite)

/-! ### Roots and quotients -/

theorem value?_zero_root {x : Float} (hx : value? x = some 0) :
    value? (Scalar.root x) = some 0 := by
  have hvalue := hasValue_unpack hx
  rw [root_eq_pack]
  generalize x.toModel.unpack = f at hvalue
  cases hvalue with
  | zero s _ => exact (rounds_zero s).value_zero
  | @finite s m e hm canonical h =>
    have hsize : (0 : Rat) < m * 2 ^ e := mul_pos (Nat.cast_pos.mpr hm) (zpow_pos two_pos e)
    rw [← abs_dyadic s, ← h, abs_zero] at hsize
    exact absurd hsize (lt_irrefl 0)

theorem AtLeast.root {x : Float} {h : Rat} (hh : 2 ^ (-500 : Int) ≤ h)
    (hx : AtLeast (4 * (h * h)) x) : AtLeast (h / 2) (Scalar.root x) := by
  have hh0 : 0 < h := lt_of_lt_of_le (zpow_pos two_pos _) hh
  cases hx with
  | infinite hinfinite =>
    apply AtLeast.infinite
    rw [root_eq_pack, hinfinite]
    exact unpack_pack_infinity .positive
  | @finite a hvalue hle =>
    have ha : 0 < a := lt_of_lt_of_le (by positivity) hle
    obtain ⟨q, hq, hlt, -, hrounds⟩ := rounds_root hvalue ha
    have hhq : h ≤ q := by
      by_contra hgt
      have hsquare : q * q ≤ h * h := mul_self_le_mul_self hq (not_le.mp hgt).le
      linarith
    have hleast : (2 : Rat) ^ (-1022 : Int) ≤ 2 ^ (-500 : Int) :=
      zpow_le_zpow_right₀ one_le_two (by decide)
    exact hrounds.atLeast (hleast.trans hh) hhq

theorem AtLeast.less_zero_div {x y : Float} {c b : Rat} (hx : AtLeast c x) (hy : value? y = some b)
    (hb : 0 < b) (hc : 2 ^ (-1074 : Int) * b ≤ c) :
    Scalar.less Scalar.zero (x / y) = true := by
  cases hx with
  | infinite h =>
    rw [less_zero_infinite (unpack_div_infinite h hy hb)]
    decide +kernel
  | @finite a hvalue hle =>
    have hlarge : (2 : Rat) ^ (-1074 : Int) ≤ a / b := (le_div_iff₀ hb).mpr (hc.trans hle)
    rw [(rounds_div hvalue hy hb.ne').less_zero_iff (.inr hlarge)]
    exact lt_of_lt_of_le (zpow_pos two_pos _) hlarge

/-! ### Nothing small but zero -/

def ZeroOrAtLeast (c : Rat) (x : Float) : Prop := value? x = some 0 ∨ AtLeast c x

namespace ZeroOrAtLeast

theorem atLeast_zero {x : Float} {c : Rat} (hc : 0 ≤ c) (h : ZeroOrAtLeast c x) : AtLeast 0 x := by
  obtain hzero | h := h
  · exact .finite hzero le_rfl
  · exact h.mono hc

theorem mono {x : Float} {c d : Rat} (h : ZeroOrAtLeast c x) (hd : d ≤ c) : ZeroOrAtLeast d x :=
  h.imp_right fun h => h.mono hd

theorem add {x y : Float} {c : Rat} (hc : 2 ^ (-1022 : Int) ≤ c) (hx : ZeroOrAtLeast c x)
    (hy : ZeroOrAtLeast c y) : ZeroOrAtLeast (c / 2) (x + y) := by
  have hc0 : 0 ≤ c := le_trans (zpow_pos two_pos _).le hc
  obtain hx | hx := hx
  · obtain hy | hy := hy
    · left
      have hsum := rounds_add hx hy
      exact (show Rounds _ 0 by simpa using hsum).value_zero
    · right
      have hsum := AtLeast.add (.finite hx le_rfl) hy (by rwa [zero_add])
      rwa [zero_add] at hsum
  · right
    have hsum := hx.add (hy.atLeast_zero hc0) (by rwa [add_zero])
    rwa [add_zero] at hsum

theorem root {x : Float} {h : Rat} (hh : 2 ^ (-500 : Int) ≤ h)
    (hx : ZeroOrAtLeast (4 * (h * h)) x) : ZeroOrAtLeast (h / 2) (Scalar.root x) :=
  hx.imp value?_zero_root (AtLeast.root hh)

end ZeroOrAtLeast

end BasRelief.Double
