import BasRelief.Proofs.Number.Monotone

/-!
# Doubles of all numerals

A numeral of any size is read as the double nearest to it: small ones as zero, large ones as
infinite.
-/

namespace BasRelief.Double
open Float.Model Float.Model.UnpackedFloat

/-! ### The ends of the range -/

theorem nearest_zero_of_le {q : Rat} (hq : |q| ≤ 2 ^ (-1074 : Int) / 2) : Nearest q 0 := by
  have hpos : (0 : Rat) < 2 ^ (-1074 : Int) := zpow_pos two_pos _
  have hplace : LastPlace q (-1074) := ⟨le_rfl, .inl rfl, by linarith⟩
  have hdistance : |q - (0 : Int) * 2 ^ (-1074 : Int)| = |q| := by
    rw [Int.cast_zero, zero_mul, sub_zero]
  have hunits := Nearest.units (-1074) 0 hplace (hdistance.trans_le hq) fun _ => Even.zero
  rwa [Int.cast_zero, zero_mul] at hunits

theorem rounds_vanishing {n places : Nat} (hn : n ≠ 0) (hp : 2048 + n.log2 < places) :
    Rounds (.ofModel (Float.Model.ofScientific n (-places))) (n / 10 ^ places) := by
  have hhigh : ¬ (2 ^ Format.binary64.exponentBits : Int) < -(places : Int) := by
    show ¬ (2048 : Int) < -(places : Int)
    omega
  have hlow : -(places : Int) < -((2 ^ Format.binary64.exponentBits : Int) + n.log2) := by
    show -(places : Int) < -(2048 + n.log2)
    omega
  have hmodel : UnpackedFloat.ofScientific Format.binary64 n (-places) = .zero .positive := by
    unfold UnpackedFloat.ofScientific
    rw [dif_neg hn, if_neg hhigh, if_pos hlow]
  have hvalue : value? (.ofModel (Float.Model.ofScientific n (-places))) = some 0 := by
    rw [value?_eq_rational?, Float.Model.ofScientific, hmodel, unpack_pack_zero]
    rfl
  refine .finite hvalue (nearest_zero_of_le ?_)
  -- the digits of the whole number are too few for so many places
  obtain ⟨k, rfl⟩ := Nat.exists_eq_add_of_le (show n.log2 + 2048 ≤ places by omega)
  have hsize : (n : Rat) ≤ 2 * 2 ^ n.log2 := by
    have hlt : n < 2 ^ (n.log2 + 1) := Nat.lt_log2_self
    have hcast : ((n : Nat) : Rat) ≤ ((2 ^ (n.log2 + 1) : Nat) : Rat) := Nat.cast_le.mpr hlt.le
    push_cast at hcast
    linarith [pow_succ (2 : Rat) n.log2]
  have htens : (2 : Rat) ^ n.log2 ≤ 10 ^ n.log2 := by gcongr; norm_num
  have hrest : (1 : Rat) ≤ 10 ^ k := one_le_pow₀ (by norm_num)
  have hleast : (2 : Rat) ≤ 2 ^ (-1074 : Int) / 2 * 10 ^ 2048 := by decide +kernel
  have hpos : (0 : Rat) < 2 ^ (-1074 : Int) / 2 := half_pos (zpow_pos two_pos _)
  rw [abs_of_nonneg (by positivity), div_le_iff₀ (by positivity), pow_add, pow_add]
  generalize (2 : Rat) ^ (-1074 : Int) / 2 = u at hleast hpos
  generalize (10 : Rat) ^ 2048 = w at hleast
  calc (n : Rat) ≤ 2 * 2 ^ n.log2 := hsize
    _ ≤ u * w * 10 ^ n.log2 := by gcongr
    _ = u * (10 ^ n.log2 * w * 1) := by ring
    _ ≤ u * (10 ^ n.log2 * w * 10 ^ k) := by
      have hw : 0 ≤ w := by
        by_contra hneg
        have hproduct : u * w ≤ 0 := mul_nonpos_of_nonneg_of_nonpos hpos.le (not_le.mp hneg).le
        linarith
      gcongr

theorem rounds_exceeding {n k : Nat} (hn : n ≠ 0) (hk : 2048 < k) :
    Rounds (.ofModel (Float.Model.ofScientific n k)) (n * 10 ^ k) := by
  have hhigh : (2 ^ Format.binary64.exponentBits : Int) < k := by
    show (2048 : Int) < k
    omega
  have hmodel : UnpackedFloat.ofScientific Format.binary64 n k = .infinity .positive := by
    unfold UnpackedFloat.ofScientific
    rw [dif_neg hn, if_pos hhigh]
  have hinfinite : (Float.ofModel (Float.Model.ofScientific n k)).toModel.unpack =
      .infinity .positive := by
    rw [Float.Model.ofScientific, hmodel]
    exact unpack_pack_infinity .positive
  have hone : (1 : Rat) ≤ n := by exact_mod_cast Nat.one_le_iff_ne_zero.mpr hn
  have hpos : (0 : Rat) < n * 10 ^ k := by positivity
  refine .overflow hinfinite (by rwa [factor, one_mul]) ?_
  have hbound : overflowBound ≤ 10 ^ 2048 := by decide +kernel
  rw [abs_of_pos hpos]
  calc overflowBound ≤ 10 ^ 2048 := hbound
    _ ≤ 10 ^ k := pow_le_pow_right₀ (by norm_num) hk.le
    _ ≤ n * 10 ^ k := le_mul_of_one_le_left (by positivity) hone

/-! ### Numerals -/

theorem rounds_model (n : Nat) (e : Int) :
    Rounds (.ofModel (Float.Model.ofScientific n e)) (n * 10 ^ e) := by
  obtain rfl | hn := eq_or_ne n 0
  · rw [Nat.cast_zero, zero_mul]
    exact rounds_zero .positive
  obtain ⟨k, rfl⟩ | ⟨k, hk⟩ := (Int.le_total 0 e).imp Int.eq_ofNat_of_zero_le
    fun h => Int.eq_ofNat_of_zero_le (neg_nonneg.mpr h)
  · rw [zpow_natCast]
    obtain hsmall | hlarge := le_or_gt k 2048
    · exact rounds_scaled hn hsmall
    · exact rounds_exceeding hn hlarge
  · obtain rfl : e = -(k : Int) := by omega
    rw [zpow_neg, zpow_natCast, ← div_eq_mul_inv]
    obtain rfl | hpos := Nat.eq_zero_or_pos k
    · have hscaled := rounds_scaled hn (Nat.zero_le 2048)
      rw [pow_zero, mul_one] at hscaled
      rw [pow_zero, div_one]
      exact hscaled
    · obtain hsmall | hlarge := le_or_gt k (2048 + n.log2)
      · exact rounds_quotient hn hpos hsmall
      · exact rounds_vanishing hn hlarge

theorem rounds_ofScientific (n : Nat) (negative : Bool) (k : Nat) :
    Rounds (Float.ofScientific n negative k) (n * 10 ^ (if negative then -(k : Int) else k)) := by
  unfold Float.ofScientific
  split
  case isTrue h =>
    have hpower := value?_powerOfTen k (Nat.lt_of_le_of_lt h.2 (by decide))
    cases negative with
    | false =>
      show Rounds _ ((n : Rat) * 10 ^ (k : Int))
      rw [zpow_natCast]
      exact rounds_mul (value?_toFloat h.1) hpower
    | true =>
      show Rounds _ ((n : Rat) * 10 ^ (-(k : Int)))
      rw [zpow_neg, zpow_natCast, ← div_eq_mul_inv]
      exact rounds_div (value?_toFloat h.1) hpower (by positivity)
  case isFalse h =>
    cases negative with
    | false => exact rounds_model n k
    | true =>
      have hexponent : Int.negOfNat k = -(k : Int) := Int.negOfNat_eq
      simp only [hexponent]
      exact rounds_model n (-k)

/-- A numeral is read as the double nearest to it. -/
theorem rounds_numeral (n : Numeral) : Rounds (ofNumeral n) n.toRat := by
  have hexponent : (if decide (n.exponent < 0) then -(n.exponent.natAbs : Int)
      else n.exponent.natAbs) = n.exponent := by
    split
    · have := of_decide_eq_true ‹_›
      omega
    · have := of_decide_eq_false (Bool.of_not_eq_true ‹_›)
      omega
  have hsize := rounds_ofScientific n.coefficient (decide (n.exponent < 0)) n.exponent.natAbs
  rw [hexponent] at hsize
  unfold ofNumeral Numeral.toRat
  dsimp only
  cases n.negative with
  | false => exact hsize
  | true => exact hsize.neg

end BasRelief.Double
