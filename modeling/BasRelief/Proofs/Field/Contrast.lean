import BasRelief.Field.Enhancement
import BasRelief.Number.Word
import BasRelief.Proofs.Number.ExactRounding
import Mathlib.Algebra.Group.Action.Defs
import Mathlib.Algebra.Order.BigOperators.Group.List

/-!
# Contrast

More contrast moves every intensity away from the mean of the image. In exact arithmetic no two
intensities change places on the way: rounding and cutting off at the ends of the octets both keep
the order, and an octet is its own rounding, so what starts on one side of the mean stays there and
comes no closer. The sum from which the mean is taken fits in a word, whatever the arithmetic is.
-/

namespace BasRelief

/-! ### Octets -/

section
variable {v w mean factor : Rat} {p q pivot : UInt8}

/-- An octet holds what is rounded and cut off, not its remainder by 256. -/
theorem toNat_octetOf (v : Rat) : ((octetOf v).toNat : Rat) = max 0 (min 255 (Exact.round v)) := by
  obtain ⟨k, hk⟩ := Exact.exists_round_eq_intCast v
  have hclamp : Scalar.clamp Scalar.zero (Scalar.natural 255) (Exact.round v) =
      ((max 0 (min 255 k) : Int) : Rat) := by
    have hends : (Scalar.zero : Rat) ≤ Scalar.natural 255 := Nat.cast_le.mpr (Nat.zero_le 255)
    rw [Exact.clamp_eq_max_min hends, hk, Int.cast_max, Int.cast_min]
    rfl
  have htruncate : (octetOf v).toNat = (max 0 (min 255 k)).toNat := by
    show (UInt8.ofNat (Scalar.truncate
      (Scalar.clamp Scalar.zero (Scalar.natural 255) (Exact.round v)))).toNat = _
    rw [hclamp, Exact.truncate_intCast, UInt8.toNat_ofNat', Nat.mod_eq_of_lt (by omega)]
  have hnonneg : ((octetOf v).toNat : Int) = max 0 (min 255 k) := by omega
  rw [hk]
  exact_mod_cast congrArg (Int.cast (R := Rat)) hnonneg

theorem octetOf_mono (h : v ≤ w) : octetOf v ≤ octetOf w := by
  rw [UInt8.le_iff_toNat_le, ← Nat.cast_le (α := Rat), toNat_octetOf, toNat_octetOf]
  exact max_le_max_left 0 (min_le_min_left 255 (Exact.round_mono h))

theorem octetOf_intensity (p : UInt8) : octetOf (intensity p : Rat) = p := by
  have hlt : (p.toNat : Rat) ≤ 255 := by exact_mod_cast Nat.le_of_lt_succ p.toNat_lt
  rw [← UInt8.toNat_inj, ← Nat.cast_inj (R := Rat), toNat_octetOf]
  show max 0 (min 255 (Exact.round (p.toNat : Rat))) = p.toNat
  rw [Exact.round_natCast, min_eq_right hlt, max_eq_right (Nat.cast_nonneg _)]

theorem intensity_le (h : p ≤ q) : (intensity p : Rat) ≤ intensity q :=
  Nat.cast_le.mpr (UInt8.le_iff_toNat_le.mp h)

/-! ### One intensity -/

theorem contrastPixel_mono (hfactor : 0 ≤ factor) (h : p ≤ q) :
    contrastPixel mean factor p ≤ contrastPixel mean factor q := by
  apply octetOf_mono
  have hgap : (intensity p : Rat) - mean ≤ intensity q - mean := by linarith [intensity_le h]
  have hscaled := mul_le_mul_of_nonneg_left hgap hfactor
  linarith

theorem le_contrastPixel (hfactor : 1 ≤ factor) (h : pivot ≤ p) :
    p ≤ contrastPixel (intensity pivot) factor p := by
  have hgap : (0 : Rat) ≤ intensity p - intensity pivot := by linarith [intensity_le h]
  have haway : (intensity p : Rat) ≤
      intensity pivot + factor * (intensity p - intensity pivot) := by
    linarith [le_mul_of_one_le_left hgap hfactor]
  calc p = octetOf (intensity p : Rat) := (octetOf_intensity p).symm
    _ ≤ contrastPixel (intensity pivot) factor p := octetOf_mono haway

theorem contrastPixel_le (hfactor : 1 ≤ factor) (h : p ≤ pivot) :
    contrastPixel (intensity pivot) factor p ≤ p := by
  have hgap : (0 : Rat) ≤ intensity pivot - intensity p := by linarith [intensity_le h]
  have haway : intensity pivot + factor * (intensity p - intensity pivot) ≤
      (intensity p : Rat) := by
    linarith [le_mul_of_one_le_left hgap hfactor]
  calc contrastPixel (intensity pivot) factor p ≤ octetOf (intensity p : Rat) := octetOf_mono haway
    _ = p := octetOf_intensity p

/-- A change of intensities that keeps their order, leaves one of them in its place and brings none
of the others closer to it, let alone across it. -/
structure SpreadsFrom (pivot : UInt8) (change : UInt8 → UInt8) : Prop where
  mono : ∀ p q, p ≤ q → change p ≤ change q
  fixed : change pivot = pivot
  above : ∀ p, pivot ≤ p → p ≤ change p
  below : ∀ p, p ≤ pivot → change p ≤ p

theorem contrastPixel_spreads (hfactor : 1 ≤ factor) (pivot : UInt8) :
    SpreadsFrom pivot (contrastPixel (intensity pivot) factor) where
  mono _ _ h := contrastPixel_mono (by linarith) h
  fixed := UInt8.le_antisymm (contrastPixel_le hfactor (UInt8.le_refl pivot))
    (le_contrastPixel hfactor (UInt8.le_refl pivot))
  above _ h := le_contrastPixel hfactor h
  below _ h := contrastPixel_le hfactor h

end

/-! ### The mean -/

namespace Raster
variable {r : Raster UInt8}

def intensitySum (r : Raster UInt8) : Nat := (r.toList.map UInt8.toNat).sum

theorem foldl_add_toNat (r : Raster UInt8) :
    r.toList.foldl (fun n v => n + v.toNat) 0 = r.intensitySum := by
  rw [intensitySum, List.sum_eq_foldl, List.foldl_map]

theorem intensitySum_le (r : Raster UInt8) : r.intensitySum ≤ r.width * r.height * 255 := by
  have hoctet : ∀ n ∈ r.toList.map UInt8.toNat, n ≤ 255 := by
    intro n hn
    obtain ⟨v, -, rfl⟩ := List.mem_map.mp hn
    exact Nat.le_of_lt_succ v.toNat_lt
  have hsum := List.sum_le_card_nsmul _ 255 hoctet
  rwa [List.length_map, length_toList, smul_eq_mul] at hsum

/-- The average intensity; zero without pixels. -/
def average (r : Raster UInt8) : Rat := r.intensitySum / (r.width * r.height : Nat)

theorem average_nonneg (r : Raster UInt8) : 0 ≤ r.average :=
  div_nonneg (Nat.cast_nonneg _) (Nat.cast_nonneg _)

theorem average_le (r : Raster UInt8) : r.average ≤ 255 := by
  have hsum : (r.intensitySum : Rat) ≤ 255 * (r.width * r.height : Nat) := by
    rw [mul_comm]
    exact_mod_cast r.intensitySum_le
  exact div_le_of_le_mul₀ (Nat.cast_nonneg _) (by norm_num) hsum

theorem average_of_constant {v : UInt8} (hsize : r.width * r.height ≠ 0)
    (h : ∀ p ∈ r.toList, p = v) : r.average = v.toNat := by
  have hsum : r.intensitySum = r.width * r.height * v.toNat := by
    rw [intensitySum, List.eq_replicate_of_mem h, List.map_replicate, List.sum_replicate,
      length_toList, smul_eq_mul]
  rw [average, hsum, Nat.cast_mul, mul_div_cancel_left₀ _ (Nat.cast_ne_zero.mpr hsize)]

/-- Without pixels the sum is zero, and so it does not matter by what it is divided. -/
theorem meanIntensity_eq_round (r : Raster UInt8) :
    meanIntensity Rat r = Exact.round r.average := by
  show Exact.round ((r.toList.foldl (fun n v => n + v.toNat) 0 : Nat) /
    (max (r.width * r.height) 1 : Nat)) = _
  rw [foldl_add_toNat, average]
  obtain hzero | hpos := Nat.eq_zero_or_pos (r.width * r.height)
  · have hsum : r.intensitySum = 0 := by
      have := r.intensitySum_le
      omega
    rw [hsum, Nat.cast_zero, zero_div, zero_div]
  · rw [Nat.max_eq_left hpos]

theorem exists_meanIntensity (r : Raster UInt8) :
    ∃ mean : UInt8, meanIntensity Rat r = intensity mean ∧
      Exact.NearestAway r.average mean.toNat := by
  have hnearest := Exact.nearestAway_signed r.average
  rw [meanIntensity_eq_round, Exact.round_eq_signed]
  generalize Exact.signed r.average _ = k at hnearest ⊢
  -- the average lies between two octets, which are their own roundings
  have hlow : 0 ≤ k := (Exact.nearestAway_intCast 0).mono hnearest (mod_cast r.average_nonneg)
  have hhigh : k ≤ 255 := hnearest.mono (Exact.nearestAway_intCast 255) (mod_cast r.average_le)
  obtain ⟨n, rfl⟩ := Int.eq_ofNat_of_zero_le hlow
  have hn : (UInt8.ofNat n).toNat = n := by
    rw [UInt8.toNat_ofNat', Nat.mod_eq_of_lt (by omega)]
  refine ⟨UInt8.ofNat n, ?_, hn.symm ▸ hnearest⟩
  show ((n : Int) : Rat) = ((UInt8.ofNat n).toNat : Rat)
  rw [hn, Int.cast_natCast]

theorem meanIntensity_of_constant {v : UInt8} (hsize : r.width * r.height ≠ 0)
    (h : ∀ p ∈ r.toList, p = v) : meanIntensity Rat r = intensity v := by
  rw [meanIntensity_eq_round, average_of_constant hsize h, Exact.round_natCast]
  rfl

end Raster

/-! ### The mean in words -/

def addIntensity? (sum : Nat) (v : UInt8) : Option Nat := word? (sum + v.toNat)

/-- `meanIntensity` as it is computed: nothing where a word does not hold an intermediate result. -/
def meanIntensity? (α : Type) [Scalar α] (r : Raster UInt8) : Option α := do
  let count ← word? (r.width * r.height)
  let sum ← r.toList.foldlM addIntensity? 0
  return Scalar.round (Scalar.natural sum / Scalar.natural (max count 1))

/-- The sum on the way is never above the one at the end. -/
theorem foldlM_addIntensity? {start : Nat} (hstart : start < wordSize) (l : List UInt8) :
    l.foldlM addIntensity? start = word? (start + (l.map UInt8.toNat).sum) := by
  induction l generalizing start with
  | nil => exact (if_pos hstart).symm
  | cons v l ih =>
    rw [List.foldlM_cons, List.map_cons, List.sum_cons, ← Nat.add_assoc, addIntensity?]
    by_cases hfits : start + v.toNat < wordSize
    · rw [word?, if_pos hfits]
      exact ih hfits
    · rw [word?, if_neg hfits, word?, if_neg (by omega)]
      rfl

theorem meanIntensity?_eq (α : Type) [Scalar α] {r : Raster UInt8} (hwidth : r.width ≤ 20000)
    (hheight : r.height ≤ 20000) : meanIntensity? α r = some (meanIntensity α r) := by
  have hcount : r.width * r.height ≤ 20000 * 20000 := Nat.mul_le_mul hwidth hheight
  have hsum := r.intensitySum_le
  have hword : wordSize = 18446744073709551616 := rfl
  have hfold : r.toList.foldlM addIntensity? 0 = some r.intensitySum := by
    rw [foldlM_addIntensity? (by omega), Nat.zero_add, ← Raster.intensitySum]
    exact if_pos (by omega)
  have hsize : word? (r.width * r.height) = some (r.width * r.height) := if_pos (by omega)
  rw [meanIntensity?, hfold, hsize, meanIntensity, Raster.foldl_add_toNat]
  rfl

/-! ### The image -/

/-- An image in which every intensity became another, by a change that spreads them from the rounded
mean as much as a factor says. -/
structure ContrastedBy (factor : Rat) (r out : Raster UInt8) (mean : UInt8)
    (change : UInt8 → UInt8) : Prop where
  mean_eq : meanIntensity Rat r = mean.toNat
  mean_near : Exact.NearestAway r.average mean.toNat
  size : out.width = r.width ∧ out.height = r.height
  pixels : out.toList = r.toList.map change
  spreads : SpreadsFrom mean change
  change_eq : ∀ p, ((change p).toNat : Rat) =
    max 0 (min 255 (Exact.round (mean.toNat + factor * (p.toNat - mean.toNat))))

/-- Contrast keeps the order of the intensities and takes none of them towards the rounded mean or
across it, an image of one intensity stays as it is, and no word overflows on the way. -/
theorem scaleContrast_spreads {factor : Rat} (hfactor : 1 ≤ factor) (r : Raster UInt8) :
    (∃ mean change, ContrastedBy factor r (scaleContrast factor r) mean change) ∧
      (∀ v, (∀ p ∈ r.toList, p = v) → scaleContrast factor r = r) ∧
      (r.width ≤ 20000 → r.height ≤ 20000 →
        ∀ (α : Type) [Scalar α], meanIntensity? α r = some (meanIntensity α r)) := by
  refine ⟨?_, ?_, fun hwidth hheight α _ => meanIntensity?_eq α hwidth hheight⟩
  · obtain ⟨mean, hmean, hnear⟩ := r.exists_meanIntensity
    refine ⟨mean, contrastPixel (intensity mean) factor, hmean, hnear, ⟨rfl, rfl⟩, ?_,
      contrastPixel_spreads hfactor mean, fun p => toNat_octetOf _⟩
    rw [scaleContrast, hmean, Raster.toList_map]
  · intro v hconstant
    apply Raster.map_eq_self
    intro p hp
    have hsize : r.width * r.height ≠ 0 := by
      rw [← r.length_toList]
      exact (List.length_pos_of_mem hp).ne'
    rw [hconstant p hp, r.meanIntensity_of_constant hsize hconstant]
    exact (contrastPixel_spreads hfactor v).fixed

/-- Two pixels beside each other. -/
def grayPair : Raster UInt8 := ⟨2, 1, #[100, 140], rfl⟩

theorem grayPair_spread :
    (1 : Rat) ≤ 2 ∧ (scaleContrast (2 : Rat) grayPair).toList = [80, 160] ∧
      (∃ mean change,
        ContrastedBy 2 grayPair (scaleContrast (2 : Rat) grayPair) mean change) ∧
      meanIntensity? Float grayPair = some (meanIntensity Float grayPair) := by
  have hfactor : (1 : Rat) ≤ 2 := by norm_num
  obtain ⟨hspread, -, hwords⟩ := scaleContrast_spreads hfactor grayPair
  exact ⟨hfactor, by decide +kernel, hspread, hwords (by decide) (by decide) Float⟩

end BasRelief
