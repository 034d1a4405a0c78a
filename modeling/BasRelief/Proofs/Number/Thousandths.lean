import BasRelief.Proofs.Number.Nearest

/-!
# Doubles nearest to thousandths

Two doubles that are nearest to whole numbers of thousandths and are not equal lie apart: small ones
because the thousandths do, large ones because doubles themselves do.
-/

namespace BasRelief.Double

theorem isNormal_thousandth (k : Int) : IsNormal (k / 1000) := by
  have hnormal := @isNormal_div_pow_ten k 3 (by decide)
  norm_num at hnormal
  exact hnormal

theorem apart_of_place {t s s' r r' : Int} (h : t ≤ s) (h' : t ≤ s')
    (hne : (r * 2 ^ s : Rat) ≠ r' * 2 ^ s') :
    (2 : Rat) ^ t ≤ |(r * 2 ^ s - r' * 2 ^ s' : Rat)| := by
  have hpos : (0 : Rat) < 2 ^ t := zpow_pos two_pos t
  obtain ⟨n, rfl⟩ := Int.le.dest h
  obtain ⟨n', rfl⟩ := Int.le.dest h'
  have hunits (r : Int) (n : Nat) : (r * 2 ^ (t + n) : Rat) = (r * 2 ^ n : Int) * 2 ^ t := by
    rw [zpow_add₀ two_ne_zero, zpow_natCast]
    push_cast
    ring
  -- in units of the place both are whole numbers
  rw [hunits, hunits] at hne ⊢
  have hint : 1 ≤ |r * 2 ^ n - r' * 2 ^ n'| := by
    apply Int.one_le_abs
    intro hzero
    exact hne (by rw [sub_eq_zero.mp hzero])
  have hone : (1 : Rat) ≤ |((r * 2 ^ n : Int) - (r' * 2 ^ n' : Int) : Rat)| := by
    exact_mod_cast hint
  rw [← sub_mul, abs_mul, abs_of_pos hpos]
  exact le_mul_of_one_le_left hpos.le hone

theorem thousandths_apart_small {k k' : Int} {r r' : Rat} (h : Nearest (k / 1000) r)
    (h' : Nearest (k' / 1000) r') (hne : k ≠ k') (hk : |k| < 2 ^ 51) (hk' : |k'| < 2 ^ 51) :
    (2 : Rat) ^ (-12 : Int) ≤ |r - r'| := by
  have herror {k : Int} {r : Rat} (h : Nearest (k / 1000) r) (hk : |k| < 2 ^ 51) :
      |(k / 1000 - r : Rat)| ≤ 1 / 4000 := by
    have hcast : |(k : Rat)| < 2 ^ 51 := mod_cast hk
    have hhalf := h.abs_sub_le_half (t := -11) (by decide) (by
      rw [abs_div, abs_of_pos (show (0 : Rat) < 1000 by norm_num), div_lt_iff₀ (by norm_num)]
      refine hcast.trans ?_
      norm_num)
    refine hhalf.trans ?_
    norm_num
  have hone : (1 : Rat) ≤ |(k : Rat) - k'| := by
    have hint : 1 ≤ |k - k'| := Int.one_le_abs (sub_ne_zero.mpr hne)
    exact_mod_cast hint
  have hsplit : |(k : Rat) - k'| / 1000 ≤ 1 / 4000 + |r - r'| + 1 / 4000 := by
    have hfirst := abs_sub_le (k / 1000 : Rat) r (k' / 1000)
    have hsecond := abs_sub_le r r' (k' / 1000 : Rat)
    have hlast := herror h' hk'
    rw [← sub_div, abs_div, abs_of_pos (show (0 : Rat) < 1000 by norm_num)] at hfirst
    rw [abs_sub_comm] at hlast
    linarith [herror h hk]
  norm_num
  linarith

theorem thousandths_apart_large {k k' : Int} {r r' : Rat} (h : Nearest (k / 1000) r)
    (h' : Nearest (k' / 1000) r') (hne : r ≠ r') (hk : 2 ^ 51 ≤ |k|) :
    (2 : Rat) ^ (-12 : Int) ≤ |r - r'| := by
  have hcast : (2 : Rat) ^ 51 ≤ |(k : Rat)| := mod_cast hk
  have hsize : |(k / 1000 : Rat)| = |(k : Rat)| / 1000 := by
    rw [abs_div, abs_of_pos (show (0 : Rat) < 1000 by norm_num)]
  have herror := h.abs_sub_le (isNormal_thousandth k)
  rw [hsize] at herror
  obtain ⟨t, z, hplace, _, _⟩ := h
  obtain ⟨t', z', hplace', hnear', _⟩ := h'
  have ht : -12 ≤ t := by
    by_contra hlt
    have hbound := hplace.bound
    have hunit : (2 : Rat) ^ t ≤ 2 ^ (-13 : Int) := zpow_le_zpow_right₀ one_le_two (by omega)
    rw [hsize] at hbound
    norm_num at hunit
    linarith
  obtain hle | hlt := le_or_gt (-12) t'
  · exact apart_of_place ht hle hne
  · -- the other number is below half of this one
    have hbound' := hplace'.bound
    have hunit : (2 : Rat) ^ t' ≤ 2 ^ (-13 : Int) := zpow_le_zpow_right₀ one_le_two (by omega)
    norm_num at hunit ⊢
    have hother := abs_sub_abs_le_abs_sub (z' * 2 ^ t' : Rat) (k' / 1000)
    have hself := abs_sub_abs_le_abs_sub (k / 1000 : Rat) (z * 2 ^ t)
    have hdistance := abs_sub_abs_le_abs_sub (z * 2 ^ t : Rat) (z' * 2 ^ t')
    rw [abs_sub_comm] at hother
    rw [hsize] at hself
    linarith

theorem thousandths_apart {k k' : Int} {r r' : Rat} (h : Nearest (k / 1000) r)
    (h' : Nearest (k' / 1000) r') (hne : r ≠ r') : (2 : Rat) ^ (-12 : Int) ≤ |r - r'| := by
  obtain hk | hk := le_or_gt (2 ^ 51) |k|
  · exact thousandths_apart_large h h' hne hk
  · obtain hk' | hk' := le_or_gt (2 ^ 51) |k'|
    · rw [abs_sub_comm]
      exact thousandths_apart_large h' h hne.symm hk'
    · refine thousandths_apart_small h h' ?_ hk hk'
      rintro rfl
      exact hne (h.unique h')

end BasRelief.Double
