import BasRelief.Number.Binary
import Mathlib.Algebra.Order.Field.Power
import Mathlib.Algebra.Order.Field.Rat
import Mathlib.Tactic.Positivity
import Mathlib.Tactic.Ring

/-!
# The value of a double

A finite double is a whole number of units in its last place. Those mantissas and exponents that a
double can have are the canonical ones, and packing a canonical pair keeps it, unless the exponent
is too large: then the double is infinite.
-/

namespace BasRelief.Double
open Float.Model Float.Model.UnpackedFloat

/-- The exact value of a double; infinities and what is not a number have none. -/
def value? (x : Float) : Option Rat := (Binary.ofFloat x).toRat?

def factor : Sign → Rat
  | .negative => -1
  | .positive => 1

def dyadic (s : Sign) (m : Nat) (e : Int) : Rat := factor s * (m * 2 ^ e)

def rational? : UnpackedFloat → Option Rat
  | .zero _ => some 0
  | .finite s m e _ => some (dyadic s m e)
  | _ => none

theorem quotient_eq (m : Nat) (e : Int) :
    ((Binary.quotient m e).1 / (Binary.quotient m e).2 : Rat) = m * 2 ^ e := by
  unfold Binary.quotient
  split
  · have hexponent : e = (e.toNat : Int) := by omega
    rw [Nat.cast_one, div_one, Nat.pow_eq, Nat.cast_mul, Nat.cast_pow, Nat.cast_ofNat]
    conv_rhs => rw [hexponent, zpow_natCast]
  · have hexponent : e = -((-e).toNat : Int) := by omega
    rw [Nat.pow_eq, Nat.cast_pow, Nat.cast_ofNat, div_eq_mul_inv]
    conv_rhs => rw [hexponent, zpow_neg, zpow_natCast]

theorem toRat?_finite (s : Sign) (m : Nat) (e : Int) :
    (Binary.finite (s == .negative) m e).toRat? = some (dyadic s m e) := by
  have hquotient := quotient_eq m e
  simp only [Binary.toRat?, hquotient, dyadic]
  cases s with
  | negative =>
    have hsign : (Sign.negative == Sign.negative) = true := rfl
    rw [hsign, if_pos rfl, factor, neg_one_mul]
  | positive =>
    have hsign : (Sign.positive == Sign.negative) = false := rfl
    simp [hsign, factor]

theorem value?_eq_rational? (x : Float) : value? x = rational? x.toModel.unpack := by
  unfold value? Binary.ofFloat
  cases x.toModel.unpack with
  | notANumber => rfl
  | infinity s => rfl
  | zero s =>
    have hzero : dyadic s 0 0 = 0 := by simp [dyadic]
    exact (toRat?_finite s 0 0).trans (congrArg some hzero)
  | finite s m e hm => exact toRat?_finite s m e

theorem value?_infinite {x : Float} {s : Sign} (h : x.toModel.unpack = .infinity s) :
    value? x = none := by
  rw [value?_eq_rational?, h]
  rfl

/-! ### Operations on what is unpacked -/

theorem neg_eq_pack (x : Float) : -x = .ofModel (.pack x.toModel.unpack.neg) := rfl

theorem add_eq_pack (x y : Float) :
    x + y = .ofModel (.pack (add Format.binary64 x.toModel.unpack y.toModel.unpack)) := rfl

theorem mul_eq_pack (x y : Float) :
    x * y = .ofModel (.pack (mul Format.binary64 x.toModel.unpack y.toModel.unpack)) := rfl

theorem div_eq_pack (x y : Float) :
    x / y = .ofModel (.pack (div Format.binary64 x.toModel.unpack y.toModel.unpack)) := rfl

/-! ### Signs -/

theorem abs_factor (s : Sign) : |factor s| = 1 := by
  cases s <;> simp [factor]

theorem factor_mul (s t : Sign) : factor (s * t) = factor s * factor t := by
  cases s <;> cases t <;> decide +kernel

theorem factor_div (s t : Sign) : factor (s / t) = factor s / factor t := by
  cases s <;> cases t <;> decide +kernel

theorem factor_neg (s : Sign) : factor (-s) = -factor s := by
  cases s <;> decide +kernel

theorem abs_dyadic (s : Sign) (m : Nat) (e : Int) : |dyadic s m e| = m * 2 ^ e := by
  have hsize : (0 : Rat) ≤ m * 2 ^ e := by positivity
  rw [dyadic, abs_mul, abs_factor, one_mul, abs_of_nonneg hsize]

/-! ### Canonical pairs -/

/-- A mantissa of at most 53 bits, with all of them in use above the least exponent. -/
structure Canonical (m : Nat) (e : Int) : Prop where
  least : -1074 ≤ e
  bound : m < 2 ^ 53
  full : 2 ^ 52 ≤ m ∨ e = -1074

theorem unpackSign_packed (s : Sign) (e : BitVec 11) (m : BitVec 52) :
    Sign.ofBitVec (unpackSign (packComponents Format.binary64 s e m)) = s := by
  have hsign : unpackSign (packComponents Format.binary64 s e m) = s.toBitVec := by
    show (s.toBitVec ++ e ++ m).extractLsb' 63 1 = s.toBitVec
    rw [BitVec.extractLsb'_append_eq_of_le (by decide),
      BitVec.extractLsb'_append_eq_of_le (by decide)]
    cases s <;> rfl
  rw [hsign]
  cases s <;> rfl

theorem unpack_pack_infinity (s : Sign) :
    (Float.Model.pack (.infinity s)).unpack = .infinity s := by
  cases s <;> rfl

theorem unpack_pack_zero (s : Sign) : (Float.Model.pack (.zero s)).unpack = .zero s := by
  cases s <;> rfl

theorem unpack_pack_notANumber : (Float.Model.pack .notANumber).unpack = .notANumber := rfl

theorem finite_congr {s s' : Sign} {m m' : Nat} {e e' : Int} {hm : 0 < m} {hm' : 0 < m'}
    (hsign : s = s') (hmantissa : m = m') (hexponent : e = e') :
    UnpackedFloat.finite s m e hm = .finite s' m' e' hm' := by
  subst hsign hmantissa hexponent
  rfl

theorem unpack_normal {s : Sign} {field : BitVec 11} {m : BitVec 52}
    (hzero : field ≠ 0#11) (hones : field ≠ -1#11) :
    UnpackedFloat.unpack Format.binary64 (packComponents Format.binary64 s field m) =
      .finite s (2 ^ 52 + m.toNat) (field.toNat - 1075) (by omega) := by
  have hmantissa : (1#1 ++ m).toNat = 2 ^ 52 + m.toNat := by
    rw [BitVec.toNat_append, BitVec.toNat_ofNat, Nat.shiftLeft_eq, Nat.one_mod, Nat.one_mul,
      Nat.or_comm, Nat.or_two_pow_eq_add_of_lt m.isLt, Nat.add_comm]
  have hfield : unpackExponent (packComponents Format.binary64 s field m) = field :=
    unpackExponent_packComponents ..
  have hrest : unpackMantissa (packComponents Format.binary64 s field m) = m :=
    unpackMantissa_packComponents ..
  unfold UnpackedFloat.unpack
  dsimp only
  rw [if_neg (by rwa [hfield]), if_neg (by rwa [hfield])]
  apply finite_congr (unpackSign_packed s field m)
  · rw [hrest, hmantissa]
  · rw [hfield]
    rfl

theorem unpack_subnormal {s : Sign} {m : BitVec 52} (hm : 0 < m.toNat) :
    UnpackedFloat.unpack Format.binary64 (packComponents Format.binary64 s 0#11 m) =
      .finite s m.toNat (-1074) hm := by
  have hne : m ≠ 0#52 := by
    rintro rfl
    exact absurd hm (by decide)
  have hfield : unpackExponent (packComponents Format.binary64 s 0#11 m) = 0#11 :=
    unpackExponent_packComponents ..
  have hrest : unpackMantissa (packComponents Format.binary64 s 0#11 m) = m :=
    unpackMantissa_packComponents ..
  unfold UnpackedFloat.unpack
  dsimp only
  rw [if_neg (by rw [hfield]; decide), if_pos hfield, dif_neg (by rwa [hrest])]
  apply finite_congr (unpackSign_packed s 0#11 m)
  · rw [hrest]
  · rw [hfield]
    rfl
theorem pack_finite (s : Sign) {m : Nat} (e : Int) (hm : 0 < m) :
    UnpackedFloat.pack Format.binary64 (.finite s m e hm) =
      if 2 ^ 11 ≤ (e + 1075).toNat + 1 then packedInfinity Format.binary64 s
      else if m.log2 + 1 = 53 then
        packComponents Format.binary64 s (BitVec.ofNat 11 (e + 1075).toNat) (BitVec.ofNat 52 m)
      else packComponents Format.binary64 s 0#11 (BitVec.ofNat 52 m) := by
  have hbias : e + Format.binary64.exponentBias + Format.binary64.mantissaBitsWithoutImplicit =
      e + 1075 := by
    show e + 1023 + 52 = _
    omega
  unfold UnpackedFloat.pack
  simp only [hbias]
  rfl

theorem unpack_pack_finite {s : Sign} {m : Nat} {e : Int} {hm : 0 < m} (h : Canonical m e)
    (he : e ≤ 971) : (Float.Model.pack (.finite s m e hm)).unpack = .finite s m e hm := by
  obtain ⟨hleast, hbound, hfull⟩ := h
  show UnpackedFloat.unpack Format.binary64 (UnpackedFloat.pack Format.binary64 _) = _
  rw [pack_finite, if_neg (by omega)]
  by_cases hbits : m.log2 + 1 = 53
  · have hlog : m.log2 = 52 := Nat.succ_inj.mp hbits
    have hnormal : 2 ^ 52 ≤ m := ((Nat.log2_eq_iff hm.ne').mp hlog).1
    have hfield : (BitVec.ofNat 11 (e + 1075).toNat).toNat = (e + 1075).toNat := by
      rw [BitVec.toNat_ofNat, Nat.mod_eq_of_lt (by omega)]
    rw [if_pos hbits, unpack_normal]
    · apply finite_congr rfl
      · rw [BitVec.toNat_ofNat]
        show 2 ^ 52 + m % 2 ^ 52 = m
        omega
      · rw [hfield]
        omega
    · intro hzero
      rw [hzero] at hfield
      have hfield' : 0 = (e + 1075).toNat := hfield
      omega
    · intro hones
      rw [hones] at hfield
      have hfield' : 2047 = (e + 1075).toNat := hfield
      omega
  · have hlog : m.log2 ≠ 52 := fun hlog => hbits (congrArg Nat.succ hlog)
    have hsmall : m < 2 ^ 52 := by
      by_contra hlarge
      exact hlog ((Nat.log2_eq_iff hm.ne').mpr ⟨not_lt.mp hlarge, hbound⟩)
    have hmantissa : (BitVec.ofNat 52 m).toNat = m := by
      rw [BitVec.toNat_ofNat, Nat.mod_eq_of_lt hsmall]
    have hsub := unpack_subnormal (s := s) (m := BitVec.ofNat 52 m) (by omega)
    rw [if_neg hbits]
    refine hsub.trans (finite_congr rfl hmantissa ?_)
    omega

theorem unpack_pack_overflow {s : Sign} {m : Nat} {e : Int} {hm : 0 < m} (he : 971 < e) :
    (Float.Model.pack (.finite s m e hm)).unpack = .infinity s := by
  show UnpackedFloat.unpack Format.binary64 (UnpackedFloat.pack Format.binary64 _) = _
  rw [pack_finite, if_pos (by omega)]
  exact unpack_pack_infinity s

/-- A double that is not zero has a canonical mantissa and exponent. -/
theorem canonical_of_unpack {x : Float} {s : Sign} {m : Nat} {e : Int} {hm : 0 < m}
    (h : x.toModel.unpack = .finite s m e hm) : Canonical m e ∧ e ≤ 971 := by
  have hbias : ((Format.binary64.exponentBias : Nat) + (52 : Nat) : Int) = 1075 := rfl
  unfold Float.Model.unpack UnpackedFloat.unpack at h
  dsimp only [hbias] at h
  have hmantissa : (@unpackMantissa Format.binary64 x.toModel.toBits.toBitVec).toNat < 2 ^ 52 :=
    (@unpackMantissa Format.binary64 x.toModel.toBits.toBitVec).isLt
  have hfield : (@unpackExponent Format.binary64 x.toModel.toBits.toBitVec).toNat < 2 ^ 11 :=
    (@unpackExponent Format.binary64 x.toModel.toBits.toBitVec).isLt
  by_cases hones : @unpackExponent Format.binary64 x.toModel.toBits.toBitVec = -1#11
  · rw [if_pos hones] at h
    by_cases hrest : @unpackMantissa Format.binary64 x.toModel.toBits.toBitVec = 0#52
    · rw [if_pos hrest] at h
      cases h
    · rw [if_neg hrest] at h
      cases h
  rw [if_neg hones] at h
  by_cases hzero : @unpackExponent Format.binary64 x.toModel.toBits.toBitVec = 0#11
  · rw [if_pos hzero] at h
    by_cases hrest : @unpackMantissa Format.binary64 x.toModel.toBits.toBitVec = 0#52
    · rw [dif_pos hrest] at h
      cases h
    · rw [dif_neg hrest] at h
      injection h with _ hm he
      rw [hzero] at he
      have he' : e = -1074 := he.symm
      subst hm he'
      exact ⟨⟨by decide, hmantissa.trans (by decide), .inr rfl⟩, by decide⟩
  · rw [if_neg hzero] at h
    injection h with _ hm he
    rw [BitVec.toNat_append, BitVec.toNat_ofNat, Nat.shiftLeft_eq, Nat.one_mod, Nat.one_mul,
      Nat.or_comm, Nat.or_two_pow_eq_add_of_lt hmantissa] at hm
    have hlow : (@unpackExponent Format.binary64 x.toModel.toBits.toBitVec).toNat ≠ 0 :=
      fun hz => hzero (BitVec.eq_of_toNat_eq hz)
    have hhigh : (@unpackExponent Format.binary64 x.toModel.toBits.toBitVec).toNat ≠ 2047 :=
      fun ho => hones (BitVec.eq_of_toNat_eq ho)
    exact ⟨⟨by omega, by omega, .inl (by omega)⟩, by omega⟩

end BasRelief.Double
