import BasRelief.Decimal.Rounding
import Mathlib.Algebra.Order.Field.Rat
import Mathlib.Tactic.Ring
import Mathlib.Tactic.Linarith

/-!
# The nearest whole number, as a bound on a fraction

A rounded quotient is at most a half away from the fraction. Where it is exactly a half away,
`nearestUp` is the upper neighbour and `nearestEven` the even one.
-/

namespace BasRelief.Decimal

/-! ### Half away -/

theorem nearestUp_bounds (num : Nat) {den : Nat} (h : 0 < den) :
    2 * den * nearestUp num den ≤ 2 * num + den ∧
      2 * num + den < 2 * den * nearestUp num den + 2 * den := by
  have hdiv := Nat.div_add_mod (2 * num + den) (2 * den)
  have hlt := Nat.mod_lt (2 * num + den) (show 0 < 2 * den by omega)
  unfold nearestUp
  omega

theorem nearestUp_mul (k : Nat) {den : Nat} (h : 0 < den) : nearestUp (k * den) den = k := by
  have hsum : 2 * (k * den) + den = den + k * (2 * den) := by ring
  rw [nearestUp, hsum, Nat.add_mul_div_right _ _ (by omega), Nat.div_eq_of_lt (by omega),
    Nat.zero_add]

theorem nearestUp_le (num : Nat) {den : Nat} (h : 0 < den) :
    (nearestUp num den : Rat) ≤ num / den + 1 / 2 := by
  have hden : (0 : Rat) < den := Nat.cast_pos.mpr h
  have hbound : (2 * den * nearestUp num den : Rat) ≤ 2 * num + den :=
    mod_cast (nearestUp_bounds num h).1
  rw [div_add_div _ _ hden.ne' two_ne_zero, le_div_iff₀ (by positivity)]
  linarith

theorem lt_nearestUp (num : Nat) {den : Nat} (h : 0 < den) :
    (num / den - 1 / 2 : Rat) < nearestUp num den := by
  have hden : (0 : Rat) < den := Nat.cast_pos.mpr h
  have hbound : (2 * num + den : Rat) < 2 * den * nearestUp num den + 2 * den :=
    mod_cast (nearestUp_bounds num h).2
  rw [div_sub_div _ _ hden.ne' two_ne_zero, div_lt_iff₀ (by positivity)]
  linarith

/-! ### Half to even -/

theorem nearestEven_le (num : Nat) {den : Nat} (h : 0 < den) :
    (nearestEven num den : Rat) ≤ num / den + 1 / 2 := by
  have hden : (0 : Rat) < den := Nat.cast_pos.mpr h
  have hbound : (2 * den * nearestEven num den : Rat) ≤ 2 * num + den :=
    mod_cast (nearestEven_bounds num h).2
  rw [div_add_div _ _ hden.ne' two_ne_zero, le_div_iff₀ (by positivity)]
  linarith

theorem le_nearestEven (num : Nat) {den : Nat} (h : 0 < den) :
    (num / den - 1 / 2 : Rat) ≤ nearestEven num den := by
  have hden : (0 : Rat) < den := Nat.cast_pos.mpr h
  have hbound : (2 * num : Rat) ≤ 2 * den * nearestEven num den + den :=
    mod_cast (nearestEven_bounds num h).1
  rw [div_sub_div _ _ hden.ne' two_ne_zero, div_le_iff₀ (by positivity)]
  linarith

theorem even_nearestEven_of_tie {num den : Nat} (h : 0 < den)
    (htie : 2 * num + den = 2 * den * nearestEven num den ∨
      2 * den * nearestEven num den + den = 2 * num) : Even (nearestEven num den) := by
  have hdiv := Nat.div_add_mod num den
  have hlt := Nat.mod_lt num h
  have hsucc : 2 * den * (num / den + 1) = 2 * (den * (num / den)) + 2 * den := by ring
  have hsame : 2 * den * (num / den) = 2 * (den * (num / den)) := Nat.mul_assoc ..
  rw [Nat.even_iff]
  revert htie
  simp only [nearestEven]
  split
  · omega
  · split
    · omega
    · -- the fraction lies half-way between its neighbours
      omega

/-! ### Fractions that are rounded to zero -/

theorem nearestUp_pos_iff (num : Nat) {den : Nat} (h : 0 < den) :
    0 < nearestUp num den ↔ den ≤ 2 * num := by
  unfold nearestUp
  rw [Nat.div_pos_iff]
  omega

/-- Exactly a half goes to zero, which is even. -/
theorem nearestEven_pos_iff (num : Nat) {den : Nat} (h : 0 < den) :
    0 < nearestEven num den ↔ den < 2 * num := by
  obtain ⟨hlow, hhigh⟩ := nearestEven_bounds num h
  constructor
  · intro hpos
    have hunit : 2 * den ≤ 2 * den * nearestEven num den := Nat.le_mul_of_pos_right _ hpos
    by_contra hle
    have htie : 2 * num + den = 2 * den * nearestEven num den := by omega
    obtain ⟨k, hk⟩ := even_nearestEven_of_tie h (.inl htie)
    have hdouble : 2 * den * 2 ≤ 2 * den * nearestEven num den := Nat.mul_le_mul_left _ (by omega)
    omega
  · intro hlt
    apply Nat.pos_of_ne_zero
    intro hzero
    rw [hzero] at hlow
    omega

/-! ### Equal quotients -/

theorem nearestUp_mul_left (num den : Nat) {k : Nat} (hk : 0 < k) :
    nearestUp (k * num) (k * den) = nearestUp num den := by
  have hnum : 2 * (k * num) + k * den = k * (2 * num + den) := by ring
  have hden : 2 * (k * den) = k * (2 * den) := by ring
  rw [nearestUp, nearestUp, hnum, hden, Nat.mul_div_mul_left _ _ hk]

theorem nearestEven_mul_left (num den : Nat) {k : Nat} (hk : 0 < k) :
    nearestEven (k * num) (k * den) = nearestEven num den := by
  have htwice : 2 * (k * (num % den)) = k * (2 * (num % den)) := by ring
  simp only [nearestEven, Nat.mul_div_mul_left _ _ hk, Nat.mul_mod_mul_left, htwice,
    Nat.mul_lt_mul_left hk]

theorem nearestUp_congr {num den num' den' : Nat} (h : 0 < den) (h' : 0 < den')
    (hquotient : num * den' = num' * den) : nearestUp num den = nearestUp num' den' := by
  rw [← nearestUp_mul_left num den h', ← nearestUp_mul_left num' den' h, Nat.mul_comm den' num,
    hquotient, Nat.mul_comm num' den, Nat.mul_comm den' den]

theorem nearestEven_congr {num den num' den' : Nat} (h : 0 < den) (h' : 0 < den')
    (hquotient : num * den' = num' * den) : nearestEven num den = nearestEven num' den' := by
  rw [← nearestEven_mul_left num den h', ← nearestEven_mul_left num' den' h, Nat.mul_comm den' num,
    hquotient, Nat.mul_comm num' den, Nat.mul_comm den' den]

/-! ### Quotients a whole step apart -/

theorem nearestUp_lt_nearestUp {num den num' den' : Nat} (h : 0 < den) (h' : 0 < den')
    (hstep : (num / den + 1 : Rat) ≤ num' / den') : nearestUp num den < nearestUp num' den' := by
  have hle := nearestUp_le num h
  have hlt := lt_nearestUp num' h'
  exact_mod_cast show (nearestUp num den : Rat) < nearestUp num' den' by linarith

/-- The order could only be lost half-way between two whole numbers, where equal quotients are
rounded alike. -/
theorem nearestEven_le_nearestEven {num den num' den' : Nat} (h : 0 < den) (h' : 0 < den')
    (hle : (num / den : Rat) ≤ num' / den') : nearestEven num den ≤ nearestEven num' den' := by
  by_contra hlt
  have hstep : (nearestEven num' den' + 1 : Rat) ≤ nearestEven num den := by
    exact_mod_cast Nat.succ_le_of_lt (Nat.lt_of_not_le hlt)
  have hhigh := nearestEven_le num h
  have hlow := le_nearestEven num' h'
  have hsame : (num / den : Rat) = num' / den' := by linarith
  have hden : (den : Rat) ≠ 0 := Nat.cast_ne_zero.mpr h.ne'
  have hden' : (den' : Rat) ≠ 0 := Nat.cast_ne_zero.mpr h'.ne'
  rw [div_eq_div_iff hden hden'] at hsame
  have hcross : num * den' = num' * den := by exact_mod_cast hsame
  exact hlt (nearestEven_congr h h' hcross).le

/-- A whole number that is at most a half away from a fraction is the one that is closer to it. -/
theorem eq_of_near {r k : Nat} {q : Rat} (hlow : q - 1 / 2 ≤ r) (hhigh : r ≤ q + 1 / 2)
    (hnear : |q - k| < 1 / 2) : r = k := by
  obtain ⟨hleft, hright⟩ := abs_lt.mp hnear
  have hbelow : (r : Rat) < k + 1 := by linarith
  have habove : (k : Rat) < r + 1 := by linarith
  norm_cast at hbelow habove
  omega

theorem nearestUp_eq_of_abs_lt {num den k : Nat} (h : 0 < den)
    (hnear : |(num / den : Rat) - k| < 1 / 2) : nearestUp num den = k :=
  eq_of_near (lt_nearestUp num h).le (nearestUp_le num h) hnear

theorem nearestEven_eq_of_abs_lt {num den k : Nat} (h : 0 < den)
    (hnear : |(num / den : Rat) - k| < 1 / 2) : nearestEven num den = k :=
  eq_of_near (le_nearestEven num h) (nearestEven_le num h) hnear

end BasRelief.Decimal
