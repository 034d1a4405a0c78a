/-!
# Machine words

How far counts and lists reach. A list beyond the longest one ends the work: there is no answer to
give. What becomes of a count beyond a word is settled when the program is built, so it is a
parameter of what is counted; a count that is not said to be otherwise is checked.
-/

namespace BasRelief

def wordSize : Nat := Nat.pow 2 64

/-- The length of the longest list of doubles or of words: eight octets each, in a signed word. -/
def longestList : Nat := Nat.pow 2 60 - 1

def word? (n : Nat) : Option Nat := if n < wordSize then some n else none

theorem word?_eq_some {n m : Nat} : word? n = some m ↔ n < wordSize ∧ n = m := by
  unfold word?
  by_cases h : n < wordSize <;> simp [h]

/-- What becomes of a count that no word holds. -/
inductive Overflow
  | stops
  | wraps
  deriving DecidableEq, Repr

namespace Overflow

/-- A count as the program has it, unless the work ends. -/
def word? : Overflow → Nat → Option Nat
  | stops, n => BasRelief.word? n
  | wraps, n => some (n % wordSize)

/-- A count that fits is the same in every build. -/
theorem word?_of_lt (overflow : Overflow) {n : Nat} (h : n < wordSize) :
    overflow.word? n = some n := by
  cases overflow with
  | stops => exact word?_eq_some.mpr ⟨h, rfl⟩
  | wraps => exact congrArg some (Nat.mod_eq_of_lt h)

end Overflow

end BasRelief
