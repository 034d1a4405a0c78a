import BasRelief.Proofs.Number.Order
import BasRelief.Proofs.Number.Whole

/-!
# Sums, differences and roots of doubles

Sums and differences are exact at the lesser exponent and rounded once. The root of a double is the
rounding of a fraction that differs from the true root only below the last bit; how large it is at
least is all that is said of it here.
-/

namespace BasRelief.Double
open Float.Model Float.Model.UnpackedFloat

/-! ### Sums -/

theorem Nearest.of_canonical {m : Nat} {e : Int} (h : Canonical m e) :
    Nearest (m * 2 ^ e) (m * 2 ^ e) := by
  have hpos : (0 : Rat) < 2 ^ e := zpow_pos two_pos e
  have hsize : |(m * 2 ^ e : Rat)| = m * 2 ^ e := abs_of_nonneg (by positivity)
  have hplace : LastPlace (m * 2 ^ e) e := by
    refine ⟨h.least, ?_, ?_⟩
    · obtain hfull | hleast := h.full
      · right
        rw [hsize]
        exact mul_le_mul_of_nonneg_right (mod_cast hfull) hpos.le
      · exact .inl hleast
    · rw [hsize]
      exact mul_lt_mul_of_pos_right (mod_cast h.bound) hpos
  have hzero : |(m * 2 ^ e - (m : Int) * 2 ^ e : Rat)| = 0 := by
    rw [Int.cast_natCast, sub_self, abs_zero]
  have hunits := Nearest.units e m hplace (by rw [hzero]; positivity)
    fun htie => absurd (hzero.symm.trans htie) (half_pos hpos).ne
  rwa [Int.cast_natCast] at hunits

theorem rounds_canonical {s : Sign} {m : Nat} {e : Int} (hm : 0 < m) (h : Canonical m e) :
    Rounds (.ofModel (.pack (.finite s m e hm))) (dyadic s m e) :=
  rounds_pack (by positivity) (.finite h (.of_canonical h))

theorem rounds_normalize (k : Int) (e : Int) :
    Rounds (.ofModel (.pack (UnpackedFloat.normalize Format.binary64 k e .positive)))
      (k * 2 ^ e) := by
  obtain hneg | rfl | hpos := lt_trichotomy k 0
  · have hcompare : compare k 0 = .lt := compare_lt_iff_lt.mpr hneg
    have hround := rounds_pack (by positivity)
      (round_roundedTo .negative (show 0 < (-k).toNat by omega) e)
    have hcast : (((-k).toNat : Nat) : Rat) = -(k : Rat) := by
      rw [← Int.cast_natCast, Int.toNat_of_nonneg (by omega), Int.cast_neg]
    simp only [UnpackedFloat.normalize, hcompare]
    rwa [hcast, factor, neg_one_mul, neg_mul, neg_neg] at hround
  · rw [Int.cast_zero, zero_mul]
    exact rounds_zero .positive
  · have hcompare : compare k 0 = .gt := compare_gt_iff_gt.mpr hpos
    have hround := rounds_pack (by positivity)
      (round_roundedTo .positive (show 0 < k.toNat by omega) e)
    have hcast : ((k.toNat : Nat) : Rat) = (k : Rat) := by
      rw [← Int.cast_natCast, Int.toNat_of_nonneg (by omega)]
    simp only [UnpackedFloat.normalize, hcompare]
    rwa [hcast, factor, one_mul] at hround

/-- At a lesser exponent the mantissa is longer and the value the same. -/
theorem apply_decreaseExponent (s : Sign) (m : Nat) {e t : Int} (h : t ≤ e) :
    ((s.apply (decreaseExponent m e t).1 : Int) : Rat) * 2 ^ t = dyadic s m e := by
  obtain ⟨n, rfl⟩ := Int.le.dest h
  have hshift : (t + n - t).toNat = n := by omega
  have hvalue : ((m * 2 ^ n : Nat) : Rat) * 2 ^ t = m * 2 ^ (t + n) := by
    rw [zpow_add₀ two_ne_zero, zpow_natCast]
    push_cast
    ring
  simp only [decreaseExponent, hshift, Nat.shiftLeft_eq]
  cases s with
  | positive =>
    rw [Sign.apply, Int.cast_natCast, hvalue, dyadic_positive]
  | negative =>
    rw [Sign.apply, Int.cast_neg, Int.cast_natCast, neg_mul, hvalue, dyadic_negative]

theorem rounds_add_unpacked {f g : UnpackedFloat} {a b : Rat} (hf : HasValue a f)
    (hg : HasValue b g) :
    Rounds (.ofModel (.pack (UnpackedFloat.add Format.binary64 f g))) (a + b) := by
  cases hf with
  | zero s ha =>
    rw [ha, zero_add]
    cases hg with
    | zero t hb =>
      have hzero : ∃ u, UnpackedFloat.add Format.binary64 (.zero s) (.zero t) = .zero u := by
        cases s <;> cases t <;> exact ⟨_, rfl⟩
      obtain ⟨u, hu⟩ := hzero
      rw [hb, hu]
      exact rounds_zero u
    | @finite t m e hm canonical hb =>
      have hsame : UnpackedFloat.add Format.binary64 (.zero s) (.finite t m e hm) =
          .finite t m e hm := rfl
      rw [hb, hsame]
      exact rounds_canonical hm canonical
  | @finite s m e hm canonical ha =>
    cases hg with
    | zero t hb =>
      have hsame : UnpackedFloat.add Format.binary64 (.finite s m e hm) (.zero t) =
          .finite s m e hm := rfl
      rw [ha, hb, add_zero, hsame]
      exact rounds_canonical hm canonical
    | @finite t m' e' hm' canonical' hb =>
      have hsum := rounds_normalize (s.apply (decreaseExponent m e (min e e')).1 +
        t.apply (decreaseExponent m' e' (min e e')).1) (min e e')
      rw [Int.cast_add, add_mul, apply_decreaseExponent s m (min_le_left e e'),
        apply_decreaseExponent t m' (min_le_right e e'), ← ha, ← hb] at hsum
      exact hsum

theorem rounds_add {x y : Float} {a b : Rat} (hx : value? x = some a) (hy : value? y = some b) :
    Rounds (x + y) (a + b) :=
  rounds_add_unpacked (hasValue_unpack hx) (hasValue_unpack hy)

/-! ### Differences -/

theorem sub_unpacked (f g : UnpackedFloat) :
    UnpackedFloat.sub Format.binary64 f g = UnpackedFloat.add Format.binary64 f g.neg := by
  have happly (s : Sign) (n : Int) : (-s).apply n = -s.apply n := by
    cases s
    · exact (neg_neg n).symm
    · rfl
  cases f with
  | notANumber => cases g <;> rfl
  | infinity s => cases g <;> rfl
  | zero s => cases g <;> rfl
  | finite s m e hm =>
    cases g with
    | notANumber => rfl
    | infinity t => rfl
    | zero t => rfl
    | finite t m' e' hm' =>
      change UnpackedFloat.normalize _ (s.apply (decreaseExponent m e (min e e')).1 -
          t.apply (decreaseExponent m' e' (min e e')).1) _ _ =
        UnpackedFloat.normalize _ (s.apply (decreaseExponent m e (min e e')).1 +
          (-t).apply (decreaseExponent m' e' (min e e')).1) _ _
      rw [happly, Int.sub_eq_add_neg]

theorem HasValue.neg {a : Rat} {f : UnpackedFloat} (h : HasValue a f) : HasValue (-a) f.neg := by
  cases h with
  | zero s h => exact .zero (-s) (by rw [h, neg_zero])
  | @finite s m e hm canonical h =>
    exact .finite canonical (by rw [h, dyadic, dyadic, factor_neg, neg_mul])

theorem rounds_sub {x y : Float} {a b : Rat} (hx : value? x = some a) (hy : value? y = some b) :
    Rounds (x - y) (a - b) := by
  have hsum := rounds_add_unpacked (hasValue_unpack hx) (hasValue_unpack hy).neg
  rw [← sub_unpacked, ← sub_eq_add_neg] at hsum
  exact hsum

/-! ### Roots -/

theorem root_eq_pack (x : Float) :
    Scalar.root x = .ofModel (.pack (sqrt Format.binary64 x.toModel.unpack)) := rfl

theorem exists_approximates (m : Nat) (acc : Accuracy) :
    ∃ u : Rat, m ≤ u ∧ u ≤ m + 1 ∧ Approximates m acc u := by
  cases acc with
  | exact => exact ⟨m, le_rfl, by linarith, .exact m⟩
  | inexact side =>
    cases side with
    | lt => exact ⟨m + 1 / 4, by linarith, by linarith, show (m : Rat) < _ by linarith,
        show _ < (m : Rat) + 1 / 2 by linarith⟩
    | eq => exact ⟨m + 1 / 2, by linarith, by linarith, rfl⟩
    | gt => exact ⟨m + 3 / 4, by linarith, by linarith, show (m : Rat) + 1 / 2 < _ by linarith,
        show _ < (m : Rat) + 1 by linarith⟩

/-- The exponent at which the root of a mantissa has enough bits. -/
def rootExponent (m : Nat) (e : Int) : Int :=
  min (e / 2) (max ((m.log2 + e + 2) / 2 - 53) (-1074))

theorem sqrtCore_eq (m : Nat) (e : Int) {k : Nat} (hk : 2 * rootExponent m e + k = e) :
    ∃ acc, sqrtCore Format.binary64 m e = (Nat.sqrt (m * 2 ^ k), rootExponent m e, acc) := by
  have hleast : Format.binary64.minExponent = -1074 := rfl
  have hbits : ((Format.binary64.mantissaBits : Nat) : Int) = 53 := rfl
  have hexponent : min (e.ediv 2) (Format.binary64.targetExponent
      ((totalExponent m e + 1).ediv 2)) = rootExponent m e := by
    have hsum : (m.log2 : Int) + 1 + e + 1 = m.log2 + e + 2 := by ring
    rw [rootExponent, Format.targetExponent, hleast, hbits, totalExponent, hsum]
    rfl
  have hshift : (e - 2 * rootExponent m e).toNat = k := by omega
  unfold sqrtCore
  simp only [hexponent, hshift, Nat.shiftLeft_eq]
  exact ⟨_, rfl⟩

theorem ready_root {m : Nat} {e : Int} {k : Nat} (hm : 0 < m) (hk : 2 * rootExponent m e + k = e) :
    Ready (Nat.sqrt (m * 2 ^ k)) (rootExponent m e) := by
  obtain hle | hlt := le_or_gt (rootExponent m e) (-1074)
  · exact .inr hle
  · have hbits : 104 ≤ m.log2 + k := by
      unfold rootExponent at hk hlt
      omega
    have hroot : 2 ^ 52 ≤ Nat.sqrt (m * 2 ^ k) := by
      rw [Nat.le_sqrt, ← Nat.pow_add]
      calc 2 ^ (52 + 52) ≤ 2 ^ (m.log2 + k) := Nat.pow_le_pow_right two_pos hbits
        _ = 2 ^ m.log2 * 2 ^ k := Nat.pow_add _ _ _
        _ ≤ m * 2 ^ k := Nat.mul_le_mul_right _ (Nat.log2_self_le hm.ne')
    exact .inl ((Nat.le_log2 (by omega)).mpr hroot)

theorem lt_four_mul_sqrt {n : Nat} (hn : 0 < n) : n < 4 * (Nat.sqrt n * Nat.sqrt n) := by
  have hone : 1 ≤ Nat.sqrt n := Nat.le_sqrt.mpr hn
  have htwice : (Nat.sqrt n).succ ≤ 2 * Nat.sqrt n := by omega
  calc n < (Nat.sqrt n).succ * (Nat.sqrt n).succ := Nat.lt_succ_sqrt n
    _ ≤ 2 * Nat.sqrt n * (2 * Nat.sqrt n) := Nat.mul_le_mul htwice htwice
    _ = 4 * (Nat.sqrt n * Nat.sqrt n) := by ring

/-- What lies above the root of the mantissa is more than half the root of the number. -/
theorem lt_four_mul_root {m : Nat} {e : Int} {k : Nat} {u : Rat} (hm : 0 < m)
    (hk : 2 * rootExponent m e + k = e) (hu : Nat.sqrt (m * 2 ^ k) ≤ u) :
    m * 2 ^ e < 4 * (u * 2 ^ rootExponent m e * (u * 2 ^ rootExponent m e)) := by
  have hu0 : 0 ≤ u := le_trans (Nat.cast_nonneg _) hu
  have hsquare : ((m * 2 ^ k : Nat) : Rat) < 4 * (Nat.sqrt (m * 2 ^ k) * Nat.sqrt (m * 2 ^ k)) :=
    mod_cast lt_four_mul_sqrt (Nat.mul_pos hm (Nat.two_pow_pos k))
  generalize rootExponent m e = t at hk
  have hpos : (0 : Rat) < 2 ^ t := zpow_pos two_pos t
  have hexponent : e = t + t + k := by omega
  calc (m * 2 ^ e : Rat) = (m * 2 ^ k : Nat) * (2 ^ t * 2 ^ t) := by
        rw [hexponent, zpow_add₀ two_ne_zero, zpow_add₀ two_ne_zero, zpow_natCast]
        push_cast
        ring
    _ < 4 * (Nat.sqrt (m * 2 ^ k) * Nat.sqrt (m * 2 ^ k)) * (2 ^ t * 2 ^ t) :=
      mul_lt_mul_of_pos_right hsquare (by positivity)
    _ ≤ 4 * (u * u) * (2 ^ t * 2 ^ t) := by gcongr
    _ = 4 * (u * 2 ^ t * (u * 2 ^ t)) := by ring

/-- What lies within one of the root of the mantissa is at most twice the root of the number. -/
theorem root_mul_root_le {m : Nat} {e : Int} {k : Nat} {u : Rat} (hm : 0 < m)
    (hk : 2 * rootExponent m e + k = e) (hu0 : 0 ≤ u) (hu : u ≤ Nat.sqrt (m * 2 ^ k) + 1) :
    u * 2 ^ rootExponent m e * (u * 2 ^ rootExponent m e) ≤ 4 * (m * 2 ^ e) := by
  have hone : (1 : Rat) ≤ Nat.sqrt (m * 2 ^ k) :=
    mod_cast Nat.le_sqrt.mpr (Nat.mul_pos hm (Nat.two_pow_pos k))
  have hsquare : (Nat.sqrt (m * 2 ^ k) * Nat.sqrt (m * 2 ^ k) : Rat) ≤ m * 2 ^ k :=
    mod_cast Nat.sqrt_le (m * 2 ^ k)
  have htwice : u ≤ 2 * Nat.sqrt (m * 2 ^ k) := by linarith
  generalize rootExponent m e = t at hk
  have hexponent : e = t + t + k := by omega
  have hpos : (0 : Rat) < 2 ^ t := zpow_pos two_pos t
  calc u * 2 ^ t * (u * 2 ^ t) = u * u * (2 ^ t * 2 ^ t) := by ring
    _ ≤ 2 * Nat.sqrt (m * 2 ^ k) * (2 * Nat.sqrt (m * 2 ^ k)) * (2 ^ t * 2 ^ t) := by gcongr
    _ = 4 * (Nat.sqrt (m * 2 ^ k) * Nat.sqrt (m * 2 ^ k)) * (2 ^ t * 2 ^ t) := by ring
    _ ≤ 4 * (m * 2 ^ k) * (2 ^ t * 2 ^ t) := by gcongr
    _ = 4 * (m * 2 ^ e) := by
      rw [hexponent, zpow_add₀ two_ne_zero, zpow_add₀ two_ne_zero, zpow_natCast]
      ring

/-- The root of a positive double is a rounding of between half and twice its true root. -/
theorem rounds_root {x : Float} {a : Rat} (hx : value? x = some a) (ha : 0 < a) :
    ∃ q : Rat, 0 ≤ q ∧ a < 4 * (q * q) ∧ q * q ≤ 4 * a ∧ Rounds (Scalar.root x) q := by
  have hvalue := hasValue_unpack hx
  rw [root_eq_pack]
  generalize x.toModel.unpack = f at hvalue
  cases hvalue with
  | zero s h => exact absurd h ha.ne'
  | @finite s m e hm canonical h =>
    cases s with
    | negative =>
      rw [h, dyadic_negative] at ha
      exact absurd ha (not_lt.mpr (neg_nonpos.mpr (by positivity)))
    | positive =>
      have hle : 2 * rootExponent m e ≤ e := by
        unfold rootExponent
        omega
      obtain ⟨k, hk⟩ := Int.le.dest hle
      obtain ⟨acc, hcore⟩ := sqrtCore_eq m e hk
      obtain ⟨u, hu, hu', happrox⟩ := exists_approximates (Nat.sqrt (m * 2 ^ k)) acc
      have hu0 : 0 ≤ u := le_trans (Nat.cast_nonneg _) hu
      have hrounded := roundWithAccuracy_roundedTo .positive happrox (ready_root hm hk)
      have hrounds := rounds_pack (by positivity) hrounded
      rw [factor, one_mul] at hrounds
      refine ⟨u * 2 ^ rootExponent m e, by positivity, ?_, ?_, ?_⟩
      · rw [h, dyadic_positive]
        exact lt_four_mul_root hm hk hu
      · rw [h, dyadic_positive]
        exact root_mul_root_le hm hk hu0 hu'
      · change Rounds (.ofModel (.pack (roundWithAccuracy Format.binary64 .positive
          (sqrtCore Format.binary64 m e).1 (sqrtCore Format.binary64 m e).2.1
          (sqrtCore Format.binary64 m e).2.2))) _
        rw [hcore]
        exact hrounds

end BasRelief.Double
