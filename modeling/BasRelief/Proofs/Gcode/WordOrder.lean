import BasRelief.Proofs.Gcode.ShownUnits
import BasRelief.Proofs.Number.Halfline
import BasRelief.Proofs.Number.Identity

/-!
# Words in the order of their coordinates

A greater coordinate is never read as a smaller value: each rounding on the way to the word keeps
the order, and a coordinate beyond the greatest double has a word without a value. So where two
coordinates have the same word, all between them have it as well.
-/

namespace BasRelief.Gcode
open Double Float.Model

/-- What the thousandfold `v` of a coordinate is rounded to, and the value of its word. -/
structure CoordinateWord (x : Float) (v t r : Rat) : Prop where
  rounded : Nearest (Exact.round v / 1000) t
  nonneg : 0 ≤ t
  read : readBack 3 (thousandths x) = some (ofNumeral (numeralOf 3 t))
  value : value? (ofNumeral (numeralOf 3 t)) = some r
  near : Nearest (unitsOf 3 t / 1000) r

theorem exists_coordinateWord {x : Float} {v : Rat}
    (hv : value? (x * Scalar.natural 1000) = some v) (hv0 : 0 ≤ v) :
    ∃ t r, CoordinateWord x v t r := by
  obtain ⟨t, ht⟩ := thousandths_finite hv
  obtain ⟨r, hr, hnear⟩ := value?_numeralOf ht.bound
  have hunits : 0 ≤ Exact.round v / 1000 := by
    rw [Exact.round_of_nonneg hv0]
    positivity
  exact ⟨t, r, ht.near, ht.near.nonneg hunits, readBack_finite ht.value ht.unsigned 3, hr, hnear⟩

theorem unitsOf_mono {t t' : Rat} (ht : 0 ≤ t) (hle : t ≤ t') : unitsOf 3 t ≤ unitsOf 3 t' := by
  have ht' := ht.trans hle
  rw [unitsOf_of_nonneg ht, unitsOf_of_nonneg ht', Int.ofNat_le]
  apply Decimal.nearestEven_le_nearestEven t.den_pos t'.den_pos
  rw [thousandfold_eq_div ht, thousandfold_eq_div ht']
  gcongr

namespace CoordinateWord
variable {x y : Float} {v v' t t' r r' : Rat}

theorem mono (h : CoordinateWord x v t r) (h' : CoordinateWord y v' t' r') (hle : v ≤ v') :
    r ≤ r' := by
  have hround : Exact.round v / 1000 ≤ Exact.round v' / 1000 :=
    div_le_div_of_nonneg_right (Exact.round_mono hle) (by norm_num)
  have hunits : (unitsOf 3 t : Rat) ≤ unitsOf 3 t' :=
    Int.cast_le.mpr (unitsOf_mono h.nonneg (h.rounded.mono h'.rounded hround))
  exact h.near.mono h'.near (div_le_div_of_nonneg_right hunits (by norm_num))

theorem read_of_zero (h : CoordinateWord x v t r) (hr : r = 0) :
    readBack 3 (thousandths x) = some (ofNumeral ⟨false, 0, -3⟩) := by
  have hunits : unitsOf 3 t = 0 := by
    have herror := h.near.abs_sub_le (isNormal_thousandth _)
    rw [hr, sub_zero] at herror
    have hzero : |(unitsOf 3 t / 1000 : Rat)| = 0 := by
      refine le_antisymm ?_ (abs_nonneg _)
      linarith [abs_nonneg (unitsOf 3 t / 1000 : Rat)]
    have hquotient := abs_eq_zero.mp hzero
    exact_mod_cast (div_eq_zero_iff.mp hquotient).resolve_right (by norm_num)
  rw [unitsOf_of_nonneg h.nonneg, Int.natCast_eq_zero] at hunits
  rw [h.read, numeralOf, hunits, decide_eq_false (not_lt.mpr h.nonneg)]
  rfl

/-- A value is read from one word alone, also where it is zero. -/
theorem read_eq (h : CoordinateWord x v t r) (h' : CoordinateWord y v' t' r) :
    readBack 3 (thousandths x) = readBack 3 (thousandths y) := by
  by_cases hr : r = 0
  · rw [h.read_of_zero hr, h'.read_of_zero hr]
  · rw [h.read, h'.read, eq_of_value? h.value h'.value hr]

theorem value_eq (h : CoordinateWord x v t r) (h' : CoordinateWord y v' t' r')
    (hread : readBack 3 (thousandths x) = readBack 3 (thousandths y)) : r = r' := by
  rw [h.read, h'.read] at hread
  exact Option.some.inj (h.value.symm.trans (Option.some.inj hread ▸ h'.value))

end CoordinateWord

/-- Up to `2 ^ 50` thousandths the word tells how many they are. -/
theorem read_eq_iff {x y : Float} {v v' : Rat} (hv : value? (x * Scalar.natural 1000) = some v)
    (hv' : value? (y * Scalar.natural 1000) = some v') (hv0 : 0 ≤ v) (hle : v ≤ v')
    (hsmall : Exact.round v' < 2 ^ 50) :
    readBack 3 (thousandths x) = readBack 3 (thousandths y) ↔
      Exact.round v = Exact.round v' := by
  have hround := Exact.round_mono hle
  constructor
  · intro hread
    obtain ⟨w, k, n, q, hw, hq, hshown⟩ := exists_shownAs hv hv0
    obtain ⟨w', k', n', q', hw', hq', hshown'⟩ := exists_shownAs hv' (hv0.trans hle)
    obtain rfl : w = w' := Option.some.inj (hw.symm.trans (hread.trans hw'))
    obtain rfl : q = q' := Option.some.inj (hq.symm.trans hq')
    rw [hshown'.rounded] at hsmall hround ⊢
    rw [hshown.rounded] at hround ⊢
    have hk : k ≤ k' := by exact_mod_cast hround
    have hk' : k' < 2 ^ 50 := by exact_mod_cast hsmall
    obtain hlt | rfl := Nat.lt_or_eq_of_le hk
    · exact absurd (hshown.lt_of_units_lt hshown' hlt hk') (lt_irrefl q)
    · rfl
  · intro hsame
    obtain ⟨t, r, hx⟩ := exists_coordinateWord hv hv0
    obtain ⟨t', r', hy⟩ := exists_coordinateWord hv' (hv0.trans hle)
    have hnear := hx.rounded
    rw [hsame] at hnear
    obtain rfl := hnear.unique hy.rounded
    rw [hx.read, hy.read]

theorem StandsAt.word {x : Float} {a : WithTop Rat} (h : StandsAt (x * Scalar.natural 1000) a) :
    (a = ⊤ ∧ readBack 3 (thousandths x) = none) ∨
      ∃ v t r : Rat, a = v ∧ CoordinateWord x v t r := by
  cases h with
  | @value v hv nonneg =>
    obtain ⟨t, r, hword⟩ := exists_coordinateWord hv nonneg
    exact .inr ⟨v, t, r, rfl, hword⟩
  | infinite hx => exact .inl ⟨rfl, readBack_infinite (thousandths_infinite hx) 3⟩

theorem read_eq_of_between {x y z : Float}
    (hxy : Precedes (x * Scalar.natural 1000) (y * Scalar.natural 1000))
    (hyz : Precedes (y * Scalar.natural 1000) (z * Scalar.natural 1000))
    (hread : readBack 3 (thousandths x) = readBack 3 (thousandths z)) :
    readBack 3 (thousandths x) = readBack 3 (thousandths y) := by
  obtain ⟨a, b, ha, hb, hab⟩ := hxy
  obtain ⟨b', c, hb', hc, hbc⟩ := hyz
  obtain rfl := hb.unique hb'
  obtain ⟨rfl, hx⟩ | ⟨v, t, r, rfl, hx⟩ := StandsAt.word ha
  · obtain rfl := top_le_iff.mp hab
    obtain ⟨_, hy⟩ | ⟨_, _, _, htop, _⟩ := StandsAt.word hb
    · rw [hx, hy]
    · exact absurd htop.symm WithTop.coe_ne_top
  · obtain ⟨rfl, hz⟩ | ⟨v'', t'', r'', rfl, hz⟩ := StandsAt.word hc
    · rw [hx.read, hz] at hread
      cases hread
    · obtain ⟨rfl, _⟩ | ⟨v', t', r', rfl, hy⟩ := StandsAt.word hb
      · exact absurd (top_le_iff.mp hbc) WithTop.coe_ne_top
      · have hlow := hx.mono hy (WithTop.coe_le_coe.mp hab)
        have hhigh := hy.mono hz (WithTop.coe_le_coe.mp hbc)
        obtain rfl := le_antisymm hlow (hhigh.trans_eq (hx.value_eq hz hread).symm)
        exact hx.read_eq hy

end BasRelief.Gcode
