import BasRelief.Proofs.Number.Rounding

/-!
# Arithmetic on doubles

Products, quotients and whole numbers are rounded once: the double is nearest to the exact result,
or infinite where the result is too large for a finite one.
-/

namespace BasRelief.Double
open Float.Model Float.Model.UnpackedFloat

/-- Half a unit of the last place above the greatest double. -/
def overflowBound : Rat := (2 ^ 54 - 1) * 2 ^ (970 : Int)

/-- A double that is the rounding of an exact result. -/
inductive Rounds (x : Float) (q : Rat) : Prop where
  | finite {v : Rat} (value : value? x = some v) (near : Nearest q v)
  | overflow {s : Sign} (infinite : x.toModel.unpack = .infinity s) (sign : 0 < factor s * q)
      (large : overflowBound ≤ |q|)

theorem Rounds.nearest {x : Float} {q v : Rat} (h : Rounds x q) (hx : value? x = some v) :
    Nearest q v := by
  cases h with
  | finite hvalue near =>
    obtain rfl := Option.some.inj (hx.symm.trans hvalue)
    exact near
  | overflow infinite sign large =>
    rw [value?_infinite infinite] at hx
    cases hx

/-- A double with a value is a zero, or has a canonical pair with that value. -/
inductive HasValue (a : Rat) : UnpackedFloat → Prop where
  | zero (s : Sign) (h : a = 0) : HasValue a (.zero s)
  | finite {s : Sign} {m : Nat} {e : Int} {hm : 0 < m} (canonical : Canonical m e)
      (h : a = dyadic s m e) : HasValue a (.finite s m e hm)

theorem hasValue_unpack {x : Float} {a : Rat} (h : value? x = some a) :
    HasValue a x.toModel.unpack := by
  rw [value?_eq_rational?] at h
  cases hx : x.toModel.unpack with
  | notANumber =>
    rw [hx] at h
    cases h
  | infinity s =>
    rw [hx] at h
    cases h
  | zero s =>
    rw [hx] at h
    exact .zero s (Option.some.inj h).symm
  | finite s m e hm =>
    rw [hx] at h
    exact .finite (canonical_of_unpack hx).1 (Option.some.inj h).symm

/-! ### What a rounded result is packed as -/

theorem Nearest.factor {q v : Rat} (h : Nearest q v) (s : Sign) :
    Nearest (factor s * q) (factor s * v) := by
  cases s with
  | negative => simpa [Double.factor] using h.neg
  | positive => simpa [Double.factor] using h

theorem two_zpow_le_of_canonical {m : Nat} {e : Int} (h : Canonical m e) (he : 971 < e) :
    (2 : Rat) ^ (1024 : Int) ≤ m * 2 ^ e := by
  have hfull : 2 ^ 52 ≤ m := by
    obtain hfull | hleast := h.full
    · exact hfull
    · omega
  calc (2 : Rat) ^ (1024 : Int) ≤ 2 ^ ((52 : Nat) + e) := by
        apply zpow_le_zpow_right₀ one_le_two
        push_cast
        omega
    _ = ((2 ^ 52 : Nat) : Rat) * 2 ^ e := by
        rw [zpow_add₀ two_ne_zero, zpow_natCast]
        push_cast
        rfl
    _ ≤ m * 2 ^ e := by gcongr

theorem overflowBound_pos : 0 < overflowBound := by
  unfold overflowBound
  positivity

/-- What is rounded to a number too large for a double lies beyond the bound. -/
theorem Nearest.overflowBound_le {q v : Rat} (h : Nearest q v) (hv : 2 ^ (1024 : Int) ≤ |v|) :
    overflowBound ≤ |q| := by
  have hbound : overflowBound = 2 ^ (1024 : Int) - 2 ^ (971 : Int) / 2 := by
    have hpow : (2 : Rat) ^ (1024 : Int) = 2 ^ 54 * 2 ^ (970 : Int) := by
      rw [← zpow_natCast, ← zpow_add₀ two_ne_zero]
      rfl
    have hunit : (2 : Rat) ^ (971 : Int) = 2 ^ (970 : Int) * 2 := zpow_add_one₀ two_ne_zero 970
    rw [overflowBound, hpow, hunit]
    ring
  rw [hbound]
  by_contra hsmall
  exact absurd hv (not_le.mpr (h.lt_of_lt_sub (by decide) rfl (not_le.mp hsmall)))

theorem rounds_pack {s : Sign} {q : Rat} {f : UnpackedFloat} (hq : 0 ≤ q) (h : RoundedTo s q f) :
    Rounds (.ofModel (.pack f)) (factor s * q) := by
  cases h with
  | zero near =>
    have hnear := near.factor s
    rw [mul_zero] at hnear
    refine .finite ?_ hnear
    rw [value?_eq_rational?, unpack_pack_zero]
    rfl
  | @finite m e hm canonical near =>
    obtain hle | hlt := le_or_gt e 971
    · refine .finite ?_ (near.factor s)
      rw [value?_eq_rational?, unpack_pack_finite canonical hle]
      rfl
    · have hbig := two_zpow_le_of_canonical canonical hlt
      have hlarge := near.overflowBound_le (hbig.trans (le_abs_self _))
      have hpos : 0 < q := by
        rw [abs_of_nonneg hq] at hlarge
        exact lt_of_lt_of_le overflowBound_pos hlarge
      refine .overflow (unpack_pack_overflow hlt) ?_ ?_
      · rw [← mul_assoc]
        cases s <;> simpa [Double.factor] using hpos
      · rwa [abs_mul, abs_factor, one_mul]

/-! ### Products -/

theorem ready_mul {m₁ m₂ : Nat} {e₁ e₂ : Int} (h₁ : Canonical m₁ e₁) (h₂ : Canonical m₂ e₂)
    (hm₁ : 0 < m₁) (hm₂ : 0 < m₂) : Ready (m₁ * m₂) (e₁ + e₂) := by
  have hlog {n : Nat} (h : 2 ^ 52 ≤ n) : 52 ≤ n.log2 :=
    (Nat.le_log2 (by omega)).mpr h
  obtain hfull | hleast := h₁.full
  · exact .inl (hlog (hfull.trans (Nat.le_mul_of_pos_right m₁ hm₂)))
  · obtain hfull | hleast' := h₂.full
    · exact .inl (hlog (hfull.trans (Nat.le_mul_of_pos_left m₂ hm₁)))
    · exact .inr (by omega)

theorem rounds_zero (s : Sign) : Rounds (.ofModel (.pack (.zero s))) 0 := by
  refine .finite ?_ Nearest.zero
  rw [value?_eq_rational?, unpack_pack_zero]
  rfl

theorem rounds_mul {x y : Float} {a b : Rat} (hx : value? x = some a) (hy : value? y = some b) :
    Rounds (x * y) (a * b) := by
  have key {f g : UnpackedFloat} (hf : HasValue a f) (hg : HasValue b g) :
      Rounds (.ofModel (.pack (UnpackedFloat.mul Format.binary64 f g))) (a * b) := by
    cases hf with
    | zero s ha =>
      rw [ha, zero_mul]
      cases hg <;> exact rounds_zero _
    | @finite s₁ m₁ e₁ hm₁ canonical₁ ha =>
      cases hg with
      | zero s hb =>
        rw [hb, mul_zero]
        exact rounds_zero _
      | @finite s₂ m₂ e₂ hm₂ canonical₂ hb =>
        have hrounded := roundWithAccuracy_roundedTo (s₁ * s₂) (.exact (m₁ * m₂))
          (ready_mul canonical₁ canonical₂ hm₁ hm₂)
        have hproduct : a * b = factor (s₁ * s₂) * ((m₁ * m₂ : Nat) * 2 ^ (e₁ + e₂)) := by
          rw [ha, hb, dyadic, dyadic, factor_mul, zpow_add₀ two_ne_zero]
          push_cast
          ring
        rw [hproduct]
        exact rounds_pack (by positivity) hrounded
  exact key (hasValue_unpack hx) (hasValue_unpack hy)

/-! ### Quotients -/

theorem approximates_accuracyOfFraction (m : Nat) {num den : Nat} (h : num < den) :
    Approximates m (accuracyOfFraction num den) (m + num / den) := by
  have hden : (0 : Rat) < den := Nat.cast_pos.mpr (by omega)
  have hlt : (num / den : Rat) < 1 := (div_lt_one hden).mpr (Nat.cast_lt.mpr h)
  unfold accuracyOfFraction
  split
  case isTrue hzero =>
    rw [hzero, Nat.cast_zero, zero_div, add_zero]
    exact .exact m
  case isFalse hne =>
    have hpos : (0 : Rat) < num / den :=
      div_pos (Nat.cast_pos.mpr (Nat.pos_of_ne_zero hne)) hden
    cases hcompare : compare (2 * num) den with
    | lt =>
      have hhalf : (2 * num : Rat) < den := mod_cast Nat.compare_eq_lt.mp hcompare
      have hhalf' : (num / den : Rat) < 1 / 2 := by
        rw [div_lt_div_iff₀ hden two_pos]
        linarith
      exact ⟨by show (m : Rat) < _; linarith, by show _ < (m : Rat) + 1 / 2; linarith⟩
    | eq =>
      have hhalf : (2 * num : Rat) = den := mod_cast Nat.compare_eq_eq.mp hcompare
      have hhalf' : (num / den : Rat) = 1 / 2 := by
        rw [div_eq_div_iff hden.ne' two_ne_zero]
        linarith
      show (m : Rat) + num / den = m + 1 / 2
      rw [hhalf']
    | gt =>
      have hhalf : (den : Rat) < 2 * num := mod_cast Nat.compare_eq_gt.mp hcompare
      have hhalf' : (1 / 2 : Rat) < num / den := by
        rw [div_lt_div_iff₀ two_pos hden]
        linarith
      exact ⟨by show (m : Rat) + 1 / 2 < _; linarith, by show _ < (m : Rat) + 1; linarith⟩

/-- The exponent at which the quotient of two mantissas has enough bits. -/
def quotientExponent (m₁ : Nat) (e₁ : Int) (m₂ : Nat) (e₂ : Int) : Int :=
  min (e₁ - e₂) (max (m₁.log2 - m₂.log2 + (e₁ - e₂) - 53) (-1074))

theorem divCore_eq (m₁ : Nat) (e₁ : Int) (m₂ : Nat) (e₂ : Int) {k : Nat}
    (hk : quotientExponent m₁ e₁ m₂ e₂ + k = e₁ - e₂) :
    divCore Format.binary64 m₁ e₁ m₂ e₂ =
      (m₁ * 2 ^ k / m₂, quotientExponent m₁ e₁ m₂ e₂,
        accuracyOfFraction (m₁ * 2 ^ k % m₂) m₂) := by
  have hleast : Format.binary64.minExponent = -1074 := rfl
  have hbits : ((Format.binary64.mantissaBits : Nat) : Int) = 53 := rfl
  have hexponent : min (e₁ - e₂) (Format.binary64.targetExponent
      (totalExponent m₁ e₁ - totalExponent m₂ e₂)) = quotientExponent m₁ e₁ m₂ e₂ := by
    rw [quotientExponent, Format.targetExponent, hleast, hbits, totalExponent, totalExponent]
    congr 2
    ring
  have hshift : (e₁ - e₂ - quotientExponent m₁ e₁ m₂ e₂).toNat = k := by omega
  unfold divCore
  simp only [hexponent, hshift, Nat.shiftLeft_eq]

theorem div_unpacked {s₁ s₂ : Sign} {m₁ m₂ : Nat} {e₁ e₂ : Int} {hm₁ : 0 < m₁} {hm₂ : 0 < m₂}
    {k : Nat} (hk : quotientExponent m₁ e₁ m₂ e₂ + k = e₁ - e₂) :
    UnpackedFloat.div Format.binary64 (.finite s₁ m₁ e₁ hm₁) (.finite s₂ m₂ e₂ hm₂) =
      roundWithAccuracy Format.binary64 (s₁ / s₂) (m₁ * 2 ^ k / m₂)
        (quotientExponent m₁ e₁ m₂ e₂) (accuracyOfFraction (m₁ * 2 ^ k % m₂) m₂) := by
  have hcore := divCore_eq m₁ e₁ m₂ e₂ hk
  change roundWithAccuracy Format.binary64 (s₁ / s₂) (divCore Format.binary64 m₁ e₁ m₂ e₂).1
    (divCore Format.binary64 m₁ e₁ m₂ e₂).2.1 (divCore Format.binary64 m₁ e₁ m₂ e₂).2.2 = _
  rw [hcore]

theorem ready_quotient {m₁ : Nat} {e₁ : Int} {m₂ : Nat} {e₂ : Int} {k : Nat} (hm₁ : 0 < m₁)
    (hm₂ : 0 < m₂) (hk : quotientExponent m₁ e₁ m₂ e₂ + k = e₁ - e₂) :
    Ready (m₁ * 2 ^ k / m₂) (quotientExponent m₁ e₁ m₂ e₂) := by
  obtain hle | hlt := le_or_gt (quotientExponent m₁ e₁ m₂ e₂) (-1074)
  · exact .inr hle
  · have hbits : m₂.log2 + 53 ≤ m₁.log2 + k := by
      unfold quotientExponent at hk hlt
      omega
    have hquotient : 2 ^ 52 ≤ m₁ * 2 ^ k / m₂ := by
      rw [Nat.le_div_iff_mul_le hm₂]
      calc 2 ^ 52 * m₂ ≤ 2 ^ 52 * 2 ^ (m₂.log2 + 1) :=
            Nat.mul_le_mul_left _ (Nat.lt_log2_self).le
        _ = 2 ^ (m₂.log2 + 53) := by rw [← Nat.pow_add]; congr 1; omega
        _ ≤ 2 ^ (m₁.log2 + k) := Nat.pow_le_pow_right two_pos hbits
        _ = 2 ^ m₁.log2 * 2 ^ k := Nat.pow_add _ _ _
        _ ≤ m₁ * 2 ^ k := Nat.mul_le_mul_right _ (Nat.log2_self_le hm₁.ne')
    exact .inl ((Nat.le_log2 (by omega)).mpr hquotient)

theorem rounds_div_finite {s₁ s₂ : Sign} {m₁ m₂ : Nat} {e₁ e₂ : Int} (hm₁ : 0 < m₁)
    (hm₂ : 0 < m₂) :
    Rounds (.ofModel (.pack (UnpackedFloat.div Format.binary64 (.finite s₁ m₁ e₁ hm₁)
      (.finite s₂ m₂ e₂ hm₂)))) (dyadic s₁ m₁ e₁ / dyadic s₂ m₂ e₂) := by
  have hle : quotientExponent m₁ e₁ m₂ e₂ ≤ e₁ - e₂ := min_le_left _ _
  obtain ⟨k, hk⟩ := Int.le.dest hle
  have hden : (0 : Rat) < m₂ := Nat.cast_pos.mpr hm₂
  have hrounded := roundWithAccuracy_roundedTo (s₁ / s₂)
    (approximates_accuracyOfFraction (m₁ * 2 ^ k / m₂) (Nat.mod_lt (m₁ * 2 ^ k) hm₂))
    (ready_quotient hm₁ hm₂ hk)
  have hfraction : ((m₁ * 2 ^ k / m₂ : Nat) : Rat) + (m₁ * 2 ^ k % m₂ : Nat) / m₂ =
      m₁ * 2 ^ k / m₂ := by
    have hdiv := Nat.div_add_mod (m₁ * 2 ^ k) m₂
    have hcast : ((m₂ * (m₁ * 2 ^ k / m₂) + m₁ * 2 ^ k % m₂ : Nat) : Rat) = m₁ * 2 ^ k := by
      rw [hdiv]
      push_cast
      ring
    push_cast at hcast
    field_simp
    linarith
  rw [hfraction] at hrounded
  have hvalue : dyadic s₁ m₁ e₁ / dyadic s₂ m₂ e₂ =
      factor (s₁ / s₂) * ((m₁ * 2 ^ k / m₂ : Rat) * 2 ^ quotientExponent m₁ e₁ m₂ e₂) := by
    have hexponent : (2 : Rat) ^ quotientExponent m₁ e₁ m₂ e₂ = 2 ^ e₁ / 2 ^ e₂ / 2 ^ k := by
      rw [← zpow_natCast, ← zpow_sub₀ two_ne_zero, ← zpow_sub₀ two_ne_zero]
      congr 1
      omega
    rw [dyadic, dyadic, factor_div, hexponent]
    field_simp
  rw [hvalue, div_unpacked hk]
  exact rounds_pack (by positivity) hrounded

theorem rounds_div {x y : Float} {a b : Rat} (hx : value? x = some a) (hy : value? y = some b)
    (hb : b ≠ 0) : Rounds (x / y) (a / b) := by
  have key {f g : UnpackedFloat} (hf : HasValue a f) (hg : HasValue b g) :
      Rounds (.ofModel (.pack (UnpackedFloat.div Format.binary64 f g))) (a / b) := by
    cases hg with
    | zero s h => exact absurd h hb
    | @finite s₂ m₂ e₂ hm₂ canonical₂ hb' =>
      cases hf with
      | zero s ha =>
        rw [ha, zero_div]
        exact rounds_zero _
      | @finite s₁ m₁ e₁ hm₁ canonical₁ ha =>
        rw [ha, hb']
        exact rounds_div_finite hm₁ hm₂
  exact key (hasValue_unpack hx) (hasValue_unpack hy)

end BasRelief.Double
