/-!
# Decimal digits

Natural numbers as digit strings and back. `value_digits` says that the digits of a number read
back as that number.
-/

namespace BasRelief.Decimal

def digitChar (d : Nat) : Char := Char.ofNat (48 + d)

def isDigit (c : Char) : Bool := '0' ≤ c && c ≤ '9'

def digitValue (c : Char) : Nat := c.toNat - 48

/-- The digits of `n`, most significant first, without leading zeros; zero has one digit. -/
def digits (n : Nat) : List Char :=
  if n < 10 then [digitChar n] else digits (n / 10) ++ [digitChar (n % 10)]

def value (cs : List Char) : Nat := cs.foldl (fun v c => 10 * v + digitValue c) 0

def natText (n : Nat) : String := String.ofList (digits n)

def length (n : Nat) : Nat := if n < 10 then 1 else length (n / 10) + 1

/-! ### Laws -/

theorem digitValue_digitChar {d : Nat} (h : d < 10) : digitValue (digitChar d) = d := by
  have key : ∀ d : Fin 10, digitValue (digitChar d.val) = d.val := by decide
  exact key ⟨d, h⟩

theorem isDigit_digitChar {d : Nat} (h : d < 10) : isDigit (digitChar d) = true := by
  have key : ∀ d : Fin 10, isDigit (digitChar d.val) = true := by decide
  exact key ⟨d, h⟩

theorem value_append_single (cs : List Char) (c : Char) :
    value (cs ++ [c]) = 10 * value cs + digitValue c := by
  simp [value, List.foldl_append]

theorem value_digits (n : Nat) : value (digits n) = n := by
  induction n using digits.induct with
  | case1 n h => rw [digits, if_pos h]; simp [value, digitValue_digitChar h]
  | case2 n h ih =>
    rw [digits, if_neg h, value_append_single, ih, digitValue_digitChar (Nat.mod_lt _ (by omega))]
    omega

theorem isDigit_of_mem_digits {n : Nat} {c : Char} (h : c ∈ digits n) : isDigit c = true := by
  induction n using digits.induct with
  | case1 n hn =>
    rw [digits, if_pos hn, List.mem_singleton] at h
    exact h ▸ isDigit_digitChar hn
  | case2 n hn ih =>
    rw [digits, if_neg hn, List.mem_append, List.mem_singleton] at h
    rcases h with h | h
    · exact ih h
    · exact h ▸ isDigit_digitChar (Nat.mod_lt _ (by omega))

theorem length_digits (n : Nat) : (digits n).length = length n := by
  induction n using digits.induct with
  | case1 n h => rw [digits, length, if_pos h, if_pos h]; rfl
  | case2 n h ih => rw [digits, length, if_neg h, if_neg h, List.length_append, ih]; rfl

theorem digits_ne_nil (n : Nat) : digits n ≠ [] := by
  rw [digits]; split <;> simp

end BasRelief.Decimal
