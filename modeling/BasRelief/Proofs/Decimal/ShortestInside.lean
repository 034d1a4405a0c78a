import BasRelief.Decimal.Shortest
import Mathlib.Algebra.Order.Field.Power
import Mathlib.Algebra.Order.Field.Rat
import Mathlib.Tactic.FieldSimp
import Mathlib.Tactic.Linarith
import Mathlib.Tactic.Positivity
import Mathlib.Tactic.Ring

/-!
# The shortest decimal lies inside its interval

The search goes from coarse grids to finer ones. A grid that is finer than the interval is wide
meets it, so a search that goes as far ends with a decimal inside the interval, and trimming zeros
does not move it.
-/

namespace BasRelief.Decimal

namespace Interval

/-! ### Intervals of fractions -/

/-- The fractions between the bounds, the bounds themselves only where the interval is closed. -/
def Contains (i : Interval) (q : Rat) : Prop :=
  if i.closed then (i.low : Rat) / i.den ≤ q ∧ q ≤ i.high / i.den
  else (i.low : Rat) / i.den < q ∧ q < i.high / i.den

/-- The value lies strictly between the bounds. -/
structure Proper (i : Interval) : Prop where
  den_pos : 0 < i.den
  low_lt : i.low < i.value
  lt_high : i.value < i.high

theorem Contains.bounds {i : Interval} {q : Rat} (h : i.Contains q) :
    (i.low : Rat) / i.den ≤ q ∧ q ≤ i.high / i.den := by
  unfold Contains at h
  split at h
  · exact h
  · exact ⟨h.1.le, h.2.le⟩

theorem holds_iff {i : Interval} (hden : 0 < i.den) (num : Nat) :
    i.holds num = true ↔ i.Contains (num / i.den) := by
  have hpos : (0 : Rat) < i.den := Nat.cast_pos.mpr hden
  unfold holds Contains
  split
  · rw [Bool.and_eq_true, decide_eq_true_eq, decide_eq_true_eq,
      div_le_div_iff_of_pos_right hpos, div_le_div_iff_of_pos_right hpos, Nat.cast_le, Nat.cast_le]
  · rw [Bool.and_eq_true, decide_eq_true_eq, decide_eq_true_eq,
      div_lt_div_iff_of_pos_right hpos, div_lt_div_iff_of_pos_right hpos, Nat.cast_lt, Nat.cast_lt]

theorem holds_mul_den_iff {i : Interval} (hden : 0 < i.den) (n : Nat) :
    i.holds (n * i.den) = true ↔ i.Contains n := by
  have hpos : (i.den : Rat) ≠ 0 := Nat.cast_ne_zero.mpr hden.ne'
  rw [holds_iff hden, Nat.cast_mul, mul_div_cancel_right₀ _ hpos]

/-! ### Grids -/

/-- The width of the interval in units of a power of ten. -/
def Wide (i : Interval) (power : Int) : Prop :=
  (10 : Rat) ^ power < (i.high : Rat) / i.den - i.low / i.den

theorem scaled_proper {i : Interval} (h : i.Proper) (power : Int) : (i.scaled power).Proper := by
  obtain ⟨hden, hlow, hhigh⟩ := h
  have hpow (n : Nat) : 0 < Nat.pow 10 n := Nat.pow_pos (by decide)
  unfold scaled
  split
  · exact ⟨hden, Nat.mul_lt_mul_of_pos_right hlow (hpow _),
      Nat.mul_lt_mul_of_pos_right hhigh (hpow _)⟩
  · exact ⟨Nat.mul_pos hden (hpow _), hlow, hhigh⟩

theorem closed_scaled (i : Interval) (power : Int) : (i.scaled power).closed = i.closed := by
  unfold scaled
  split <;> rfl

/-- The bounds of a scaled interval, as fractions, are the bounds times the power of ten. -/
theorem scaled_bounds (i : Interval) (power : Int) :
    ((i.scaled power).low : Rat) / (i.scaled power).den = i.low / i.den * 10 ^ power ∧
      ((i.scaled power).high : Rat) / (i.scaled power).den = i.high / i.den * 10 ^ power := by
  unfold scaled
  split
  · obtain ⟨n, rfl⟩ := Int.eq_ofNat_of_zero_le ‹0 ≤ power›
    have hpow : Nat.pow 10 n = 10 ^ n := rfl
    simp only [Int.toNat_natCast, hpow, Nat.cast_mul, Nat.cast_pow, Nat.cast_ofNat, zpow_natCast]
    constructor <;> ring
  · obtain ⟨n, rfl⟩ : ∃ n : Nat, power = -n := ⟨(-power).toNat, by omega⟩
    have hpow : Nat.pow 10 n = 10 ^ n := rfl
    simp only [neg_neg, Int.toNat_natCast, hpow, Nat.cast_mul, Nat.cast_pow, Nat.cast_ofNat,
      zpow_neg, zpow_natCast]
    constructor <;> rw [div_mul_eq_div_div, div_eq_mul_inv _ ((10 : Rat) ^ n)]

theorem contains_scaled_iff (i : Interval) (top : Int) (q : Rat) :
    (i.scaled (-top)).Contains q ↔ i.Contains (q * 10 ^ top) := by
  have hpos : (0 : Rat) < 10 ^ top := zpow_pos (by norm_num) top
  obtain ⟨hlow, hhigh⟩ := scaled_bounds i (-top)
  unfold Contains
  rw [closed_scaled, hlow, hhigh, zpow_neg, ← div_eq_mul_inv, ← div_eq_mul_inv]
  split
  · rw [div_le_iff₀ hpos, le_div_iff₀ hpos]
  · rw [div_lt_iff₀ hpos, lt_div_iff₀ hpos]

theorem den_lt_of_wide {i : Interval} (h : i.Proper) {top : Int} (hwide : i.Wide top) :
    (i.scaled (-top)).low + (i.scaled (-top)).den < (i.scaled (-top)).high := by
  have hpos : (0 : Rat) < 10 ^ top := zpow_pos (by norm_num) top
  have hden : (0 : Rat) < (i.scaled (-top)).den :=
    Nat.cast_pos.mpr (scaled_proper h (-top)).den_pos
  obtain ⟨hlow, hhigh⟩ := scaled_bounds i (-top)
  have hone : (1 : Rat) < (i.scaled (-top)).high / (i.scaled (-top)).den -
      (i.scaled (-top)).low / (i.scaled (-top)).den := by
    rw [hlow, hhigh, ← sub_mul, zpow_neg, ← div_eq_mul_inv, one_lt_div hpos]
    exact hwide
  rw [← sub_div, one_lt_div hden] at hone
  have hcast : (((i.scaled (-top)).low + (i.scaled (-top)).den : Nat) : Rat) <
      (i.scaled (-top)).high := by
    push_cast
    linarith
  exact Nat.cast_lt.mp hcast

/-! ### The search -/

theorem contains_of_whole? {i : Interval} (hden : 0 < i.den) {tie : Tie} {n : Nat}
    (h : i.whole? tie = some n) : i.Contains n := by
  rw [← holds_mul_den_iff hden]
  unfold whole? at h
  dsimp only at h
  split at h
  case h_1 hlower hupper =>
    split at h
    · obtain rfl := Option.some.inj h
      exact hlower
    · split at h
      · obtain rfl := Option.some.inj h
        exact hupper
      · cases tie with
        | up =>
          obtain rfl := Option.some.inj h
          exact hupper
        | even =>
          obtain rfl := Option.some.inj h
          obtain hmod | hmod := Nat.mod_two_eq_zero_or_one (i.value / i.den)
          · rw [hmod, Nat.add_zero]
            exact hlower
          · rw [hmod]
            exact hupper
  case h_2 hlower _ =>
    obtain rfl := Option.some.inj h
    exact hlower
  case h_3 _ hupper =>
    obtain rfl := Option.some.inj h
    exact hupper
  case h_4 => cases h

/-- An interval wider than one holds one of the two whole numbers around its value. -/
theorem exists_whole? {i : Interval} (h : i.Proper) (hwide : i.low + i.den < i.high) (tie : Tie) :
    ∃ n, i.whole? tie = some n := by
  obtain ⟨hden, hlow, hhigh⟩ := h
  have hdiv := Nat.div_add_mod i.value i.den
  have hlt := Nat.mod_lt i.value hden
  have hlower : i.value / i.den * i.den ≤ i.value := Nat.div_mul_le_self _ _
  have hupper : i.value < (i.value / i.den + 1) * i.den := by
    rw [Nat.add_mul, Nat.one_mul, Nat.mul_comm]
    omega
  have hstep : (i.value / i.den + 1) * i.den = i.value / i.den * i.den + i.den := by
    rw [Nat.add_mul, Nat.one_mul]
  have heither : i.holds (i.value / i.den * i.den) = true ∨
      i.holds ((i.value / i.den + 1) * i.den) = true := by
    unfold holds
    split
    all_goals
      simp only [Bool.and_eq_true, decide_eq_true_eq]
      omega
  unfold whole?
  dsimp only
  split
  case h_1 =>
    split
    · exact ⟨_, rfl⟩
    · split
      · exact ⟨_, rfl⟩
      · cases tie <;> exact ⟨_, rfl⟩
  case h_2 => exact ⟨_, rfl⟩
  case h_3 => exact ⟨_, rfl⟩
  case h_4 hl hu =>
    rw [hl, hu] at heither
    simp at heither

theorem contains_search {i : Interval} (h : i.Proper) (tie : Tie) (steps : Nat) {top : Int}
    (hwide : i.Wide (top - steps)) :
    i.Contains ((i.search tie top steps).1 * 10 ^ (i.search tie top steps).2) := by
  have hfound {top : Int} {n : Nat} (hn : (i.scaled (-top)).whole? tie = some n) :
      i.Contains (n * 10 ^ top) :=
    (contains_scaled_iff i top n).mp (contains_of_whole? (scaled_proper h (-top)).den_pos hn)
  induction steps generalizing top with
  | zero =>
    rw [Nat.cast_zero, sub_zero] at hwide
    obtain ⟨n, hn⟩ := exists_whole? (scaled_proper h (-top)) (den_lt_of_wide h hwide) tie
    rw [search, hn]
    exact hfound hn
  | succ steps ih =>
    rw [search]
    split
    case h_1 n hn => exact hfound hn
    case h_2 =>
      apply ih
      have hplace : top - 1 - (steps : Int) = top - (steps + 1 : Nat) := by
        push_cast
        ring
      rw [hplace]
      exact hwide

theorem le_search (tie : Tie) (i : Interval) (steps : Nat) (top : Int) :
    top - steps ≤ (i.search tie top steps).2 := by
  induction steps generalizing top with
  | zero =>
    rw [search]
    omega
  | succ steps ih =>
    rw [search]
    split
    case h_1 => dsimp only; omega
    case h_2 =>
      have hrest := ih (top - 1)
      omega

/-! ### The first grid -/

theorem lt_pow_length (n : Nat) : n < 10 ^ length n := by
  induction n using length.induct with
  | case1 n hn =>
    rw [length, if_pos hn]
    omega
  | case2 n hn ih =>
    rw [length, if_neg hn, Nat.pow_succ]
    omega

theorem pow_length_le {n : Nat} (h : 0 < n) : 10 ^ (length n - 1) ≤ n := by
  induction n using length.induct with
  | case1 n hn =>
    rw [length, if_pos hn]
    exact h
  | case2 n hn ih =>
    have hrest := ih (by omega)
    have hlength : length (n / 10) - 1 + 1 = length (n / 10) := by
      have hpos : 0 < length (n / 10) := by
        rw [length]
        split <;> omega
      omega
    rw [length, if_neg hn, Nat.add_sub_cancel, ← hlength, Nat.pow_succ]
    omega

theorem length_pos (n : Nat) : 0 < length n := by
  rw [length]
  split <;> omega

/-- The search starts at a power of ten that is not above the value. -/
theorem pow_topPlace_le {i : Interval} (hden : 0 < i.den) (hvalue : 0 < i.value) :
    (10 : Rat) ^ i.topPlace ≤ i.value / i.den := by
  have hpos : (0 : Rat) < i.den := Nat.cast_pos.mpr hden
  have hpos' : (0 : Rat) < i.value := Nat.cast_pos.mpr hvalue
  unfold topPlace
  split
  case isTrue hle =>
    have hone : 0 < i.value / i.den := Nat.div_pos hle hden
    have hlength := length_pos (i.value / i.den)
    have hexponent : (length (i.value / i.den) : Int) - 1 = (length (i.value / i.den) - 1 : Nat) := by
      omega
    have hmul : 10 ^ (length (i.value / i.den) - 1) * i.den ≤ i.value :=
      (Nat.mul_le_mul_right _ (pow_length_le hone)).trans (Nat.div_mul_le_self _ _)
    rw [hexponent, zpow_natCast, le_div_iff₀ hpos]
    exact_mod_cast hmul
  case isFalse =>
    have hlt : i.den < 10 ^ length (i.den / i.value) * i.value := by
      have hdiv := Nat.div_add_mod i.den i.value
      have hmod := Nat.mod_lt i.den hvalue
      calc i.den < (i.den / i.value + 1) * i.value := by
            rw [Nat.add_mul, Nat.one_mul, Nat.mul_comm]
            omega
        _ ≤ 10 ^ length (i.den / i.value) * i.value :=
            Nat.mul_le_mul_right _ (lt_pow_length _)
    have hcast : (i.den : Rat) < 10 ^ length (i.den / i.value) * i.value := by exact_mod_cast hlt
    rw [zpow_neg, zpow_natCast, inv_le_comm₀ (by positivity) (div_pos hpos' hpos), inv_div,
      div_le_iff₀ hpos']
    exact hcast.le

/-- The value has at most one digit more. -/
theorem value_le_pow_topPlace {i : Interval} (hden : 0 < i.den) (hvalue : 0 < i.value) :
    (i.value : Rat) / i.den ≤ 10 ^ (i.topPlace + 1) := by
  have hpos : (0 : Rat) < i.den := Nat.cast_pos.mpr hden
  unfold topPlace
  split
  case isTrue hle =>
    have hlt : i.value < 10 ^ length (i.value / i.den) * i.den :=
      (Nat.div_lt_iff_lt_mul hden).mp (lt_pow_length _)
    rw [sub_add_cancel, zpow_natCast, div_le_iff₀ hpos]
    exact_mod_cast hlt.le
  case isFalse hlt =>
    have hone : 0 < i.den / i.value := Nat.div_pos (not_le.mp hlt).le hvalue
    have hlength := length_pos (i.den / i.value)
    have hexponent : -(length (i.den / i.value) : Int) + 1 =
        -((length (i.den / i.value) - 1 : Nat) : Int) := by omega
    have hmul : 10 ^ (length (i.den / i.value) - 1) * i.value ≤ i.den :=
      (Nat.mul_le_mul_right _ (pow_length_le hone)).trans (Nat.div_mul_le_self _ _)
    have hcast : (10 : Rat) ^ (length (i.den / i.value) - 1) * i.value ≤ i.den := by
      exact_mod_cast hmul
    rw [hexponent, zpow_neg, zpow_natCast, div_le_iff₀ hpos, inv_mul_eq_div,
      le_div_iff₀ (by positivity), mul_comm]
    exact hcast

end Interval

/-! ### Trimmed zeros -/

theorem trimZeros_value (n : Nat) (e : Int) :
    ((trimZeros n e).1 * 10 ^ (trimZeros n e).2 : Rat) = n * 10 ^ e := by
  induction n, e using trimZeros.induct with
  | case1 n e h ih =>
    have hten : n = n / 10 * 10 := by omega
    rw [trimZeros, dif_pos h, ih, zpow_add_one₀ (by norm_num)]
    conv_rhs => rw [hten]
    push_cast
    ring
  | case2 n e h => rw [trimZeros, dif_neg h]

theorem le_trimZeros (n : Nat) (e : Int) : e ≤ (trimZeros n e).2 := by
  induction n, e using trimZeros.induct with
  | case1 n e h ih =>
    rw [trimZeros, dif_pos h]
    omega
  | case2 n e h => rw [trimZeros, dif_neg h]

theorem le_shortest (tie : Tie) (i : Interval) : i.topPlace - 18 ≤ (shortest tie i).2 :=
  (Interval.le_search tie i 18 i.topPlace).trans (le_trimZeros _ _)

theorem contains_shortest {i : Interval} (h : i.Proper) (tie : Tie)
    (hwide : i.Wide (i.topPlace - 18)) :
    i.Contains ((shortest tie i).1 * 10 ^ (shortest tie i).2) := by
  have hsearch := Interval.contains_search h tie 18 hwide
  unfold shortest
  dsimp only
  rwa [trimZeros_value]

end BasRelief.Decimal
