import BasRelief.Proofs.Number.Printing

/-!
# Doubles with one value

A double is its sign, its exponent field and its mantissa field, and all three follow from what it
is unpacked to. So two doubles with one value are the same, unless they are the two zeros.
-/

namespace BasRelief.Double
open Float.Model Float.Model.UnpackedFloat

/-! ### The fields of a double -/

theorem sign_ofBitVec_toBitVec (b : BitVec 1) : (Sign.ofBitVec b).toBitVec = b := by
  revert b
  decide

theorem packComponents_unpacked (b : BitVec Format.binary64.numBits) :
    packComponents Format.binary64 (Sign.ofBitVec (unpackSign b)) (unpackExponent b)
      (unpackMantissa b) = b := by
  have hsign := sign_ofBitVec_toBitVec (unpackSign b)
  have hlength : b.toNat < 2 ^ 64 := b.isLt
  have hfirst : (unpackSign b).toNat = b.toNat / 2 ^ 63 % 2 := by
    show (b.extractLsb 63 63).toNat = _
    rw [BitVec.extractLsb_toNat, Nat.shiftRight_eq_div_pow]
  have hsecond : (unpackExponent b).toNat = b.toNat / 2 ^ 52 % 2 ^ 11 := by
    show (b.extractLsb 62 52).toNat = _
    rw [BitVec.extractLsb_toNat, Nat.shiftRight_eq_div_pow]
  have hthird : (unpackMantissa b).toNat = b.toNat % 2 ^ 52 := by
    show (b.extractLsb 51 0).toNat = _
    rw [BitVec.extractLsb_toNat, Nat.shiftRight_eq_div_pow]
    omega
  apply BitVec.eq_of_toNat_eq
  unfold packComponents
  rw [hsign, BitVec.toNat_append, BitVec.toNat_append, hfirst, hsecond, hthird,
    ← Nat.shiftLeft_add_eq_or_of_lt (Nat.mod_lt _ (Nat.two_pow_pos 11)),
    ← Nat.shiftLeft_add_eq_or_of_lt (Nat.mod_lt _ (Nat.two_pow_pos 52)), Nat.shiftLeft_eq,
    Nat.shiftLeft_eq]
  omega

theorem ext_bits {x y : Float} (h : x.toModel.toBits.toBitVec = y.toModel.toBits.toBitVec) :
    x = y := by
  obtain ⟨⟨⟨b⟩, hb⟩⟩ := x
  obtain ⟨⟨⟨b'⟩, hb'⟩⟩ := y
  obtain rfl : b = b' := h
  rfl

theorem bits_of_finite {x : Float} {s : Sign} {m : Nat} {e : Int} {hm : 0 < m}
    (h : x.toModel.unpack = .finite s m e hm) :
    x.toModel.toBits.toBitVec = packComponents Format.binary64 s
      (BitVec.ofNat 11 (if 2 ^ 52 ≤ m then (e + 1075).toNat else 0)) (BitVec.ofNat 52 m) := by
  have hself := packComponents_unpacked x.toModel.toBits.toBitVec
  have hbias : ((Format.binary64.exponentBias : Nat) + (52 : Nat) : Int) = 1075 := rfl
  unfold Float.Model.unpack UnpackedFloat.unpack at h
  dsimp only [hbias] at h
  have hmantissa : (@unpackMantissa Format.binary64 x.toModel.toBits.toBitVec).toNat < 2 ^ 52 :=
    (@unpackMantissa Format.binary64 x.toModel.toBits.toBitVec).isLt
  by_cases hones : @unpackExponent Format.binary64 x.toModel.toBits.toBitVec = -1#11
  · rw [if_pos hones] at h
    by_cases hnone : @unpackMantissa Format.binary64 x.toModel.toBits.toBitVec = 0#52
    · rw [if_pos hnone] at h
      cases h
    · rw [if_neg hnone] at h
      cases h
  rw [if_neg hones] at h
  by_cases hzero : @unpackExponent Format.binary64 x.toModel.toBits.toBitVec = 0#11
  · rw [if_pos hzero] at h
    by_cases hnone : @unpackMantissa Format.binary64 x.toModel.toBits.toBitVec = 0#52
    · rw [dif_pos hnone] at h
      cases h
    · rw [dif_neg hnone] at h
      injection h with hs hm' he
      rw [hs, hzero] at hself
      rw [← hself, ← hm', if_neg (by omega), BitVec.ofNat_toNat, BitVec.setWidth_eq]
  · rw [if_neg hzero] at h
    injection h with hs hm' he
    rw [hs] at hself
    rw [BitVec.toNat_append, BitVec.toNat_ofNat, Nat.shiftLeft_eq, Nat.one_mod, Nat.one_mul,
      Nat.or_comm, Nat.or_two_pow_eq_add_of_lt hmantissa] at hm'
    have hfield : (e + 1075).toNat =
        (@unpackExponent Format.binary64 x.toModel.toBits.toBitVec).toNat := by omega
    have hrest : BitVec.ofNat 52 m = @unpackMantissa Format.binary64 x.toModel.toBits.toBitVec := by
      apply BitVec.eq_of_toNat_eq
      rw [BitVec.toNat_ofNat]
      omega
    rw [← hself, if_pos (by omega), hfield, hrest, BitVec.ofNat_toNat, BitVec.setWidth_eq]

theorem bits_of_zero {x : Float} {s : Sign} (h : x.toModel.unpack = .zero s) :
    x.toModel.toBits.toBitVec = packComponents Format.binary64 s 0#11 0#52 := by
  have hself := packComponents_unpacked x.toModel.toBits.toBitVec
  unfold Float.Model.unpack UnpackedFloat.unpack at h
  dsimp only at h
  by_cases hones : @unpackExponent Format.binary64 x.toModel.toBits.toBitVec = -1#11
  · rw [if_pos hones] at h
    split at h <;> cases h
  rw [if_neg hones] at h
  by_cases hzero : @unpackExponent Format.binary64 x.toModel.toBits.toBitVec = 0#11
  · rw [if_pos hzero] at h
    by_cases hnone : @unpackMantissa Format.binary64 x.toModel.toBits.toBitVec = 0#52
    · rw [dif_pos hnone] at h
      rw [UnpackedFloat.zero.inj h, hzero, hnone] at hself
      exact hself.symm
    · rw [dif_neg hnone] at h
      cases h
  · rw [if_neg hzero] at h
    cases h

/-! ### Values -/

theorem Canonical.unique {m₁ m₂ : Nat} {e₁ e₂ : Int} (h₁ : Canonical m₁ e₁) (h₂ : Canonical m₂ e₂)
    (h : (m₁ * 2 ^ e₁ : Rat) = m₂ * 2 ^ e₂) : m₁ = m₂ ∧ e₁ = e₂ := by
  obtain hlt | rfl | hgt := lt_trichotomy e₁ e₂
  · exact absurd h (lt_of_exponent_lt h₁ h₂ hlt).ne
  · have hmantissa := mul_right_cancel₀ (zpow_ne_zero e₁ two_ne_zero) h
    exact ⟨Nat.cast_injective hmantissa, rfl⟩
  · exact absurd h (lt_of_exponent_lt h₂ h₁ hgt).ne'

theorem unpack_of_ne_zero {x : Float} {a : Rat} (hx : value? x = some a) (ha : a ≠ 0) :
    ∃ s m e hm, x.toModel.unpack = .finite s m e hm ∧ Canonical m e ∧ a = dyadic s m e := by
  have hvalue := hasValue_unpack hx
  generalize x.toModel.unpack = f at hvalue
  cases hvalue with
  | zero s h => exact absurd h ha
  | @finite s m e hm canonical h => exact ⟨s, m, e, hm, rfl, canonical, h⟩

theorem sign_eq_of_dyadic {s t : Sign} {m n : Nat} {e f : Int} (hm : 0 < m) (hn : 0 < n)
    (h : dyadic s m e = dyadic t n f) : s = t := by
  have hs := dyadic_neg_iff (s := s) hm e
  have ht := dyadic_neg_iff (s := t) hn f
  rw [h, ht] at hs
  cases s <;> cases t <;> simp_all

theorem eq_of_value? {x y : Float} {a : Rat} (hx : value? x = some a) (hy : value? y = some a)
    (ha : a ≠ 0) : x = y := by
  obtain ⟨s, m, e, hm, hu, canonical, hvalue⟩ := unpack_of_ne_zero hx ha
  obtain ⟨t, n, f, hn, hv, canonical', hvalue'⟩ := unpack_of_ne_zero hy ha
  have hsame : dyadic s m e = dyadic t n f := hvalue.symm.trans hvalue'
  have hsize : (m * 2 ^ e : Rat) = n * 2 ^ f := by
    rw [← abs_dyadic s, ← abs_dyadic t, hsame]
  obtain ⟨rfl, rfl⟩ := canonical.unique canonical' hsize
  obtain rfl := sign_eq_of_dyadic hm hn hsame
  exact ext_bits ((bits_of_finite hu).trans (bits_of_finite hv).symm)

/-- A zero is told from the other one by its sign alone. -/
theorem eq_of_unpack_zero {x y : Float} {s : Sign} (hx : x.toModel.unpack = .zero s)
    (hy : y.toModel.unpack = .zero s) : x = y :=
  ext_bits ((bits_of_zero hx).trans (bits_of_zero hy).symm)

end BasRelief.Double
