import BasRelief.Proofs.Number.LowerBound

/-!
# The half-line from zero

A double that is not below zero has its value on the half-line, or is infinite and stands at the
end. Rounding a greater fraction leads no further back, also where the result is infinite.
-/

namespace BasRelief.Double
open Float.Model

inductive StandsAt (x : Float) : WithTop Rat → Prop where
  | value {a : Rat} (hx : value? x = some a) (nonneg : 0 ≤ a) : StandsAt x a
  | infinite (hx : x.toModel.unpack = .infinity .positive) : StandsAt x ⊤

/-- Two doubles of the half-line in their order. -/
def Precedes (x y : Float) : Prop := ∃ a b, StandsAt x a ∧ StandsAt y b ∧ a ≤ b

variable {x y : Float} {q r : Rat}

theorem Rounds.standsAt (h : Rounds x q) (hq : 0 ≤ q) : ∃ a, StandsAt x a := by
  cases h with
  | finite hx near => exact ⟨_, .value hx (near.nonneg hq)⟩
  | overflow infinite sign large =>
    obtain rfl := positive_of_factor_mul sign hq
    exact ⟨⊤, .infinite infinite⟩

theorem Rounds.precedes (h : Rounds x q) (h' : Rounds y r) (hq : 0 ≤ q) (hle : q ≤ r) :
    Precedes x y := by
  have hr := hq.trans hle
  cases h' with
  | finite hy near' =>
    have hsmall : |q| < overflowBound := by
      rw [abs_of_nonneg hq]
      have hbound := near'.lt_overflowBound (abs_le_of_value? hy)
      rw [abs_of_nonneg hr] at hbound
      exact hle.trans_lt hbound
    obtain ⟨v, hx, near⟩ := h.exists_nearest hsmall
    exact ⟨v, _, .value hx (near.nonneg hq), .value hy (near'.nonneg hr),
      WithTop.coe_le_coe.mpr (near.mono near' hle)⟩
  | overflow infinite sign large =>
    obtain rfl := positive_of_factor_mul sign hr
    obtain ⟨a, ha⟩ := h.standsAt hq
    exact ⟨a, ⊤, ha, .infinite infinite, le_top⟩

theorem StandsAt.unique {a b : WithTop Rat} (h : StandsAt x a) (h' : StandsAt x b) : a = b := by
  cases h with
  | value hx =>
    cases h' with
    | value hx' => rw [Option.some.inj (hx.symm.trans hx')]
    | infinite hx' =>
      rw [value?_infinite hx'] at hx
      cases hx
  | infinite hx =>
    cases h' with
    | value hx' =>
      rw [value?_infinite hx] at hx'
      cases hx'
    | infinite => rfl

theorem StandsAt.mul_infinite (hx : x.toModel.unpack = .infinity .positive) {c : Float} {k : Rat}
    (hc : value? c = some k) (hk : 0 < k) : StandsAt (x * c) ⊤ :=
  .infinite (unpack_mul_infinite hx hc hk)

theorem Precedes.mul (h : Precedes x y) {c : Float} {k : Rat} (hc : value? c = some k)
    (hk : 0 < k) : Precedes (x * c) (y * c) := by
  obtain ⟨a, b, ha, hb, hle⟩ := h
  cases hb with
  | value hy nonneg' =>
    cases ha with
    | value hx nonneg =>
      have hproduct := mul_le_mul_of_nonneg_right (WithTop.coe_le_coe.mp hle) hk.le
      exact (rounds_mul hx hc).precedes (rounds_mul hy hc) (mul_nonneg nonneg hk.le) hproduct
    | infinite => exact absurd hle (not_le_of_gt (WithTop.coe_lt_top _))
  | infinite hy =>
    have hend := StandsAt.mul_infinite hy hc hk
    cases ha with
    | value hx nonneg =>
      obtain ⟨c', hc'⟩ := (rounds_mul hx hc).standsAt (mul_nonneg nonneg hk.le)
      exact ⟨c', ⊤, hc', hend, le_top⟩
    | infinite hx => exact ⟨⊤, ⊤, .mul_infinite hx hc hk, hend, le_rfl⟩

theorem precedes_natural {i j : Nat} (h : i ≤ j) :
    Precedes (Scalar.natural i : Float) (Scalar.natural j) := by
  have hrounds (n : Nat) : Rounds (Scalar.natural n : Float) (n : Rat) := rounds_ofScientific_zero n
  exact (hrounds i).precedes (hrounds j) (Nat.cast_nonneg i) (Nat.cast_le.mpr h)

end BasRelief.Double
