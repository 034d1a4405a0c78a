import BasRelief.Proofs.Document.Json.ExactDoubles
import BasRelief.Proofs.Number.Overflow

/-!
# Every written double can be read

Digits and power of ten are rounded on their own before they are multiplied, so the product may
come out greater than the number that was written. Below the last three doubles it still does not
overflow, and those three are read as they stand.
-/

namespace BasRelief.Document.Json
open Double

/-- The least of the last three doubles. -/
def lastThree : Rat := (2 ^ 53 - 3) * 2 ^ (971 : Int)

theorem nearest_lastThree : Nearest lastThree lastThree := by
  have hcanonical : Canonical (2 ^ 53 - 3) 971 := ⟨by decide, by decide, .inl (by decide)⟩
  have hnear := Nearest.of_canonical hcanonical
  have hcast : ((2 ^ 53 - 3 : Nat) : Rat) = 2 ^ 53 - 3 := by norm_num
  rwa [hcast] at hnear

/-- A number that is rounded twice on its way from the last three doubles does not overflow. -/
theorem lastThree_mul_lt : lastThree * ((1 + 1 / 2 ^ 53) * (1 + 1 / 2 ^ 53)) < overflowBound := by
  decide +kernel

theorem lastThree_lt_overflowBound : lastThree < overflowBound := by
  have hpos : 0 ≤ lastThree := by unfold lastThree; positivity
  exact (le_mul_of_one_le_right hpos (by norm_num)).trans_lt lastThree_mul_lt

theorem overflowBound_lt : overflowBound < 10 ^ 309 := by
  decide +kernel

/-! ### Products -/

/-- Rounding makes a number that is not below one greater by a tiny part of it at most. -/
theorem exists_value_le {x : Float} {q : Rat} (h : Rounds x q) (hone : 1 ≤ q)
    (hq : q < overflowBound) : ∃ v, value? x = some v ∧ 0 ≤ v ∧ v ≤ q * (1 + 1 / 2 ^ 53) := by
  have hpos : 0 < q := by linarith
  obtain ⟨v, hv, hnear⟩ := h.exists_nearest (by rwa [abs_of_pos hpos])
  have hleast : (2 : Rat) ^ (-1022 : Int) ≤ 1 := zpow_le_one_of_nonpos₀ one_le_two (by decide)
  have herror := hnear.abs_sub_le (.inr (by rw [abs_of_pos hpos]; exact hleast.trans hone))
  rw [abs_of_pos hpos] at herror
  have hhigh := (abs_le.1 herror).1
  exact ⟨v, hv, hnear.nonneg hpos.le, by linarith⟩

theorem rounds_powerOfTen (k : Nat) : Rounds (powerOfTen k) (10 ^ k) := by
  have hrounds := rounds_ofScientific 1 false k
  rwa [if_neg Bool.false_ne_true, zpow_natCast, Nat.cast_one, one_mul] at hrounds

theorem le_of_scaled_le {m k : Nat} (hm : 0 < m) (hsize : (m * 10 ^ k : Rat) ≤ lastThree) :
    k ≤ 308 := by
  by_contra hlarge
  have hone : (1 : Rat) ≤ m := by exact_mod_cast hm
  have hpower : (10 : Rat) ^ 309 ≤ 10 ^ k := pow_le_pow_right₀ (by norm_num) (not_le.1 hlarge)
  have hproduct : (10 : Rat) ^ k ≤ m * 10 ^ k := le_mul_of_one_le_left (by positivity) hone
  have hover := lastThree_lt_overflowBound.trans overflowBound_lt
  exact absurd (hpower.trans (hproduct.trans hsize)) (not_le.2 hover)

/-- Both factors and their product are rounded, and yet nothing below the last three doubles
overflows. -/
theorem isFinite_scaled {m k : Nat} (hm : 0 < m) (hsize : (m * 10 ^ k : Rat) ≤ lastThree) :
    (Float.ofNat m * powerOfTen k).isFinite = true := by
  have hone : (1 : Rat) ≤ m := by exact_mod_cast hm
  have hone' : (1 : Rat) ≤ 10 ^ k := one_le_pow₀ (by norm_num)
  have hlast := lastThree_lt_overflowBound
  have hfactor : (m : Rat) ≤ m * 10 ^ k := le_mul_of_one_le_right (by positivity) hone'
  have hfactor' : (10 : Rat) ^ k ≤ m * 10 ^ k := le_mul_of_one_le_left (by positivity) hone
  obtain ⟨v, hv, hv0, hvsize⟩ := exists_value_le (rounds_ofScientific_zero m) hone (by linarith)
  obtain ⟨w, hw, hw0, hwsize⟩ := exists_value_le (rounds_powerOfTen k) hone' (by linarith)
  refine (rounds_mul hv hw).isFinite_iff.2 ?_
  rw [abs_of_nonneg (mul_nonneg hv0 hw0)]
  calc v * w
    _ ≤ m * (1 + 1 / 2 ^ 53) * (10 ^ k * (1 + 1 / 2 ^ 53)) := by gcongr
    _ = m * 10 ^ k * ((1 + 1 / 2 ^ 53) * (1 + 1 / 2 ^ 53)) := by ring
    _ ≤ lastThree * ((1 + 1 / 2 ^ 53) * (1 + 1 / 2 ^ 53)) := by gcongr
    _ < overflowBound := lastThree_mul_lt

theorem exists_scale? {m : Nat} {e : Int} (hm : 0 < m) (hsize : (m * 10 ^ e : Rat) ≤ lastThree) :
    ∃ y, scale? m e = some y := by
  unfold scale?
  dsimp only
  split
  · next hpos =>
    obtain ⟨k, rfl⟩ := Int.eq_ofNat_of_zero_le hpos
    rw [zpow_natCast] at hsize
    have hk : (k : Int) ≤ 308 := by exact_mod_cast le_of_scaled_le hm hsize
    rw [if_pos hk, Int.toNat_natCast, if_pos (isFinite_scaled hm hsize)]
    exact ⟨_, rfl⟩
  · exact ⟨_, rfl⟩

/-! ### Powers of ten -/

/-- A number in the range of doubles is written with a small power of ten. -/
theorem Lexeme.Means.exponent_lt_of_range {l : Lexeme} {n : Nat} {e : Int} (h : l.Means n e)
    (hlow : 2 ^ (-1075 : Int) < (n * 10 ^ e : Rat)) (hhigh : (n * 10 ^ e : Rat) < overflowBound) :
    ∀ x ∈ l.exponent, Decimal.value x.2 < Nat.pow 2 31 := by
  intro x hx
  obtain hnone | hfull := h.full
  · rw [hnone] at hx
    cases hx
  have hshown : l.shownPower.natAbs = Decimal.value x.2 := by
    unfold shownPower
    rw [Option.mem_def.mp hx]
    dsimp only
    split <;> omega
  have hvalue := h.value_eq
  have hsplit : (10 : Rat) ^ l.power = 10 ^ l.shownPower / 10 ^ (l.fraction.getD []).length := by
    rw [power, zpow_sub₀ (by norm_num), zpow_natCast]
  have hfull' : (10 : Rat) ^ (l.fraction.getD []).length ≤ Decimal.value l.digits := by
    exact_mod_cast hfull
  have hone : (1 : Rat) ≤ 10 ^ (l.fraction.getD []).length := one_le_pow₀ (by norm_num)
  have hfew : (Decimal.value l.digits : Rat) < 10 ^ 20 := by
    have hcast : (Decimal.value l.digits : Rat) < (2 ^ 64 : Nat) := by exact_mod_cast h.few
    exact hcast.trans (by norm_num)
  have hpos : (0 : Rat) < 10 ^ l.shownPower := zpow_pos (by norm_num) _
  rw [hsplit, mul_div_assoc'] at hvalue
  have hupper : l.shownPower < 309 := by
    by_contra hlarge
    have hpower : (10 : Rat) ^ (309 : Int) ≤ 10 ^ l.shownPower :=
      zpow_le_zpow_right₀ (by norm_num) (by omega)
    have hover : overflowBound < 10 ^ (309 : Int) := overflowBound_lt
    have hle : (10 : Rat) ^ l.shownPower ≤ n * 10 ^ e := by
      rw [← hvalue, le_div_iff₀ (by positivity), mul_comm]
      exact mul_le_mul_of_nonneg_right hfull' hpos.le
    linarith
  have hlower : -345 < l.shownPower := by
    by_contra hsmall
    have hpower : (10 : Rat) ^ l.shownPower ≤ 10 ^ (-345 : Int) :=
      zpow_le_zpow_right₀ (by norm_num) (by omega)
    have hunder : (10 : Rat) ^ 20 * 10 ^ (-345 : Int) < 2 ^ (-1075 : Int) := by decide +kernel
    have hle : (n * 10 ^ e : Rat) ≤ 10 ^ 20 * 10 ^ (-345 : Int) := by
      rw [← hvalue]
      refine (div_le_self (by positivity) hone).trans ?_
      gcongr
    linarith
  show Decimal.value x.2 < 2 ^ 31
  omega

/-! ### The last three -/

/-- The last three doubles have the greatest exponent. -/
theorem eq_of_lastThree_le {m : Nat} {e : Int} (h : Canonical m e)
    (hlow : lastThree ≤ (m * 2 ^ e : Rat)) (hhigh : (m * 2 ^ e : Rat) ≤ greatestValue) :
    e = 971 ∧ (m = 2 ^ 53 - 3 ∨ m = 2 ^ 53 - 2 ∨ m = 2 ^ 53 - 1) := by
  have hpos : (0 : Rat) < 2 ^ (971 : Int) := zpow_pos two_pos _
  have hbound : (m : Rat) < 2 ^ 53 := by exact_mod_cast h.bound
  have hle : e ≤ 971 := by
    by_contra hlarge
    have hpower := two_zpow_le_of_canonical h (not_le.1 hlarge)
    exact absurd (hpower.trans hhigh) (not_le.2 greatestValue_lt)
  have hge : 971 ≤ e := by
    by_contra hsmall
    have hpower : (2 : Rat) ^ e ≤ 2 ^ (970 : Int) := zpow_le_zpow_right₀ one_le_two (by omega)
    have hunder : (2 : Rat) ^ 53 * 2 ^ (970 : Int) < lastThree := by
      have hhalf : (0 : Rat) < 2 ^ (970 : Int) := zpow_pos two_pos _
      rw [lastThree, show (971 : Int) = 970 + 1 from rfl, zpow_add_one₀ two_ne_zero, mul_comm,
        mul_left_comm]
      exact mul_lt_mul_of_pos_left (by norm_num) hhalf
    have hproduct : (m * 2 ^ e : Rat) ≤ 2 ^ 53 * 2 ^ (970 : Int) :=
      mul_le_mul hbound.le hpower (zpow_pos two_pos e).le (by positivity)
    linarith
  obtain rfl : e = 971 := le_antisymm hle hge
  have hleast : (2 ^ 53 - 3 : Rat) ≤ m := le_of_mul_le_mul_right hlow hpos
  have hleast' : 2 ^ 53 ≤ m + 3 := by
    have hcast : (2 ^ 53 : Rat) ≤ m + 3 := by linarith
    exact_mod_cast hcast
  have hbound' := h.bound
  exact ⟨rfl, by omega⟩

theorem reread?_lastThree {x : Float} {s : Float.Model.UnpackedFloat.Sign} {m : Nat} {hm : 0 < m}
    (hx : x.toModel.unpack = .finite s m 971 hm)
    (h : m = 2 ^ 53 - 3 ∨ m = 2 ^ 53 - 2 ∨ m = 2 ^ 53 - 1) : (reread? x).isSome = true := by
  have key : ∀ negative, ∀ m ∈ [2 ^ 53 - 3, 2 ^ 53 - 2, 2 ^ 53 - 1],
      ((lexeme? (Decimal.signed negative (magnitudeText (shortest .even m 971).1
        (shortest .even m 971).2))).bind Lexeme.float?).isSome = true := by
    decide +kernel
  have htext : floatText x = Decimal.signed (s == .negative)
      (magnitudeText (shortest .even m 971).1 (shortest .even m 971).2) := by
    unfold floatText Binary.ofFloat
    rw [hx]
  rw [reread?, htext]
  exact key (s == .negative) m (by simpa using h)

/-! ### Doubles -/

/-- A double that was written is read as a double, not always the same. -/
theorem exists_reread? {x : Float} {a : Rat} (hx : value? x = some a) :
    ∃ y, reread? x = some y := by
  obtain ⟨l, s, n, e, hnegative, hmeans, htext, hzero | ⟨ha, hnear⟩⟩ := floatText_lexeme hx
  · exact ⟨x, reread?_zero hzero⟩
  have hnumber : (0 : Rat) ≤ n * 10 ^ e := by positivity
  have hnear' : Nearest (n * 10 ^ e) |a| := by
    have habs := hnear.abs
    rwa [abs_mul, abs_factor, one_mul, abs_of_nonneg hnumber] at habs
  have hhigh := hnear'.lt_overflowBound (by rw [abs_abs]; exact abs_le_of_value? hx)
  rw [abs_of_nonneg hnumber] at hhigh
  obtain hsmall | hlarge := le_or_gt (n * 10 ^ e : Rat) lastThree
  · have hlow : 2 ^ (-1075 : Int) < (n * 10 ^ e : Rat) := by
      by_contra hvanishing
      have hzero := nearest_zero_of_le (q := n * 10 ^ e) (by
        rw [abs_of_nonneg hnumber]
        exact (not_lt.1 hvanishing).trans_eq (zpow_sub_one₀ two_ne_zero (-1074)))
      exact ha (abs_eq_zero.1 (hnear'.unique hzero))
    have hdigits : 0 < Decimal.value l.digits := by
      by_contra hnone
      have hvalue := hmeans.value_eq
      rw [Nat.eq_zero_of_not_pos hnone, Nat.cast_zero, zero_mul] at hvalue
      have hpos : (0 : Rat) < 2 ^ (-1075 : Int) := zpow_pos two_pos _
      linarith
    obtain ⟨y, hy⟩ := exists_scale? hdigits (hmeans.value_eq.trans_le hsmall)
    refine ⟨negate l.negative y, ?_⟩
    rw [reread?, htext, lexeme?_text hmeans.proper, Option.bind_some,
      Lexeme.float?_eq hmeans.few (hmeans.exponent_lt_of_range hlow hhigh), hy]
    rfl
  · have hlast : lastThree ≤ |a| := nearest_lastThree.mono hnear' hlarge.le
    have hvalue := hasValue_unpack hx
    cases hunpack : x.toModel.unpack with
    | finite t m k hm =>
      rw [hunpack] at hvalue
      cases hvalue with
      | finite canonical hdyadic =>
        have hsize := abs_le_of_value? hx
        rw [hdyadic, abs_dyadic] at hlast hsize
        obtain ⟨rfl, hm'⟩ := eq_of_lastThree_le canonical hlast hsize
        exact Option.isSome_iff_exists.1 (reread?_lastThree hunpack hm')
    | zero t =>
      rw [hunpack] at hvalue
      cases hvalue with
      | zero _ hzero => exact absurd hzero ha
    | infinity t => rw [hunpack] at hvalue; cases hvalue
    | notANumber => rw [hunpack] at hvalue; cases hvalue

end BasRelief.Document.Json
