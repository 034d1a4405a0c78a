/-!
# Rounding quotients

A quotient of natural numbers rounded to a whole number. Ties go to the even neighbour in
`nearestEven`, upwards in `nearestUp`; `above` rounds every fraction upwards.
-/

namespace BasRelief.Decimal

/-- The nearest whole number to `num / den`; a tie goes to the even neighbour. -/
def nearestEven (num den : Nat) : Nat :=
  let q := num / den
  let twice := 2 * (num % den)
  if twice < den then q
  else if den < twice then q + 1
  else q + q % 2

/-- The nearest whole number to `num / den`; a tie goes up. -/
def nearestUp (num den : Nat) : Nat := (2 * num + den) / (2 * den)

def above (num den : Nat) : Nat := (num + den - 1) / den

/-! ### Laws -/

theorem nearestEven_bounds (num : Nat) {den : Nat} (h : 0 < den) :
    2 * num ≤ 2 * den * nearestEven num den + den ∧
      2 * den * nearestEven num den ≤ 2 * num + den := by
  have hdiv := Nat.div_add_mod num den
  have hlt := Nat.mod_lt num h
  have hsucc : 2 * den * (num / den + 1) = 2 * (den * (num / den)) + 2 * den := by
    rw [Nat.mul_add, Nat.mul_one, Nat.mul_assoc]
  have hsame : 2 * den * (num / den) = 2 * (den * (num / den)) := Nat.mul_assoc ..
  simp only [nearestEven]
  split
  · omega
  · split
    · omega
    · rcases Nat.mod_two_eq_zero_or_one (num / den) with h2 | h2
      · rw [h2, Nat.add_zero]; omega
      · rw [h2]; omega

theorem nearestEven_mul (k : Nat) {den : Nat} (h : 0 < den) : nearestEven (k * den) den = k := by
  simp [nearestEven, Nat.mul_div_cancel k h, h]

theorem above_bounds (num : Nat) {den : Nat} (h : 0 < den) :
    num ≤ den * above num den ∧ den * above num den < num + den := by
  have hdiv := Nat.div_add_mod (num + den - 1) den
  have hlt := Nat.mod_lt (num + den - 1) h
  simp only [above]
  omega

end BasRelief.Decimal
