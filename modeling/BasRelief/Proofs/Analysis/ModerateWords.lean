import BasRelief.Proofs.Analysis.FiniteReport

/-!
# Moderate words

Squares and quotients carry values towards the ends of the range of doubles. A program whose
coordinates and feeds keep well away from them stays in range, however many lines it has.
-/

namespace BasRelief
open Gcode Double

/-- Not above zero, or neither very slow nor very fast. -/
def IsModerateFeed (v : Float) : Prop :=
  ∃ b, value? v = some b ∧ (b ≤ 0 ∨ 10 ^ (-130 : Int) ≤ b ∧ b ≤ 10 ^ 290)

instance (v : Float) : Decidable (IsModerateFeed v) :=
  decidable_of_iff (∃ b ∈ value? v, b ≤ 0 ∨ 10 ^ (-130 : Int) ≤ b ∧ b ≤ 10 ^ 290) Iff.rfl

structure Words.IsModerate (w : Words Float) : Prop where
  x : ∀ v ∈ w.x, Within (10 ^ 150) v
  y : ∀ v ∈ w.y, Within (10 ^ 150) v
  z : ∀ v ∈ w.z, Within (10 ^ 150) v
  f : ∀ v ∈ w.f, IsModerateFeed v

theorem Words.isModerate_iff (w : Words Float) : w.IsModerate ↔
    (∀ v ∈ w.x, Within (10 ^ 150) v) ∧ (∀ v ∈ w.y, Within (10 ^ 150) v) ∧
      (∀ v ∈ w.z, Within (10 ^ 150) v) ∧ ∀ v ∈ w.f, IsModerateFeed v :=
  ⟨fun ⟨hx, hy, hz, hf⟩ => ⟨hx, hy, hz, hf⟩, fun ⟨hx, hy, hz, hf⟩ => ⟨hx, hy, hz, hf⟩⟩

instance (w : Words Float) : Decidable w.IsModerate := decidable_of_iff _ w.isModerate_iff.symm

/-! ### Distances -/

structure Position.IsModerate (p : Position Float) : Prop where
  x : Within (2 ^ (499 : Int)) p.x
  y : Within (2 ^ (499 : Int)) p.y
  z : Within (2 ^ (499 : Int)) p.z

theorem Position.IsModerate.distance {p q : Position Float} (hp : p.IsModerate)
    (hq : q.IsModerate) : Within (2 ^ (502 : Int)) (p.distance q) := by
  have hsquare {x y : Float} (hx : Within (2 ^ (499 : Int)) x) (hy : Within (2 ^ (499 : Int)) y) :
      UpTo (2 ^ (1000 : Int)) ((x - y) * (x - y)) :=
    (hx.sub hy (by decide) (by decide)).square (by decide) (by decide)
  have hplane := (hsquare hq.x hp.x).add (hsquare hq.y hp.y) (by decide) (by decide)
  have hheight := (hsquare hq.z hp.z).mono
    (show (2 : Rat) ^ (1000 : Int) ≤ 2 ^ (1000 + 1 : Int) from
      zpow_le_zpow_right₀ one_le_two (by decide))
  have hsum : UpTo (2 ^ (501 + 501 : Int)) _ := hplane.add hheight (by decide) (by decide)
  exact hsum.root (by decide) (by decide)

/-! ### Times -/

theorem IsModerateFeed.per_second {feed : Float} (h : IsModerateFeed feed)
    (hpos : Scalar.less Scalar.zero feed = true) :
    ∃ w, value? (feed / Scalar.natural 60) = some w ∧ 2 ^ (-438 : Int) ≤ w := by
  obtain ⟨b, hb, hsize⟩ := h
  have hbpos := (less_iff value?_zero hb).1 hpos
  obtain hnot | ⟨hslow, hfast⟩ := hsize
  · exact absurd hbpos (not_lt.2 hnot)
  · have hsixty : value? (Scalar.natural 60 : Float) = some 60 := value?_ofNat (by decide)
    have hrounds := rounds_div hb hsixty (by norm_num)
    obtain ⟨w, hw, hnear⟩ := hrounds.exists_nearest (by
      have hbound : (10 : Rat) ^ 290 < overflowBound := by decide +kernel
      rw [abs_of_pos (by positivity)]
      exact ((div_le_self hbpos.le (by norm_num)).trans hfast).trans_lt hbound)
    refine ⟨w, hw, (nearest_two_zpow (by decide)).mono hnear ?_⟩
    have hleast : (2 : Rat) ^ (-438 : Int) ≤ 10 ^ (-130 : Int) / 60 := by decide +kernel
    exact hleast.trans (div_le_div_of_nonneg_right hslow (by norm_num))

/-! ### Moderate programs -/

namespace Modal
variable {ts : List (Token Float)} {m : Moment Float}

theorem moderate_position {us : List (Token Float)} (h : ∀ t ∈ us, t.words.IsModerate) :
    (position us).IsModerate := by
  have hzero : Within (2 ^ (499 : Int)) Scalar.zero := within_zero (by positivity)
  have hle : (10 : Rat) ^ 150 ≤ 2 ^ (499 : Int) := by decide +kernel
  constructor
  case x => exact lastValue_of_all (a := .x) hzero fun t ht v hv => ((h t ht).x v hv).mono hle
  case y => exact lastValue_of_all (a := .y) hzero fun t ht v hv => ((h t ht).y v hv).mono hle
  case z => exact lastValue_of_all (a := .z) hzero fun t ht v hv => ((h t ht).z v hv).mono hle

theorem within_moderate_distance (h : ∀ t ∈ ts, t.words.IsModerate) (hm : m ∈ moments ts) :
    Within (2 ^ (502 : Int)) m.distance := by
  obtain ⟨hbefore, hupTo⟩ := subset_of_mem_moments hm
  exact (moderate_position fun t ht => h t (hbefore ht)).distance
    (moderate_position fun t ht => h t (hupTo ht))

theorem moderate_feed (h : ∀ t ∈ ts, t.words.IsModerate) (hm : m ∈ moments ts) :
    IsModerateFeed m.feed :=
  (values_of_moment (a := .f) ⟨0, value?_zero, .inl le_rfl⟩ (fun t ht => (h t ht).f) hm).2

theorem within_moderate_seconds (h : ∀ t ∈ ts, t.words.IsModerate) (hm : m ∈ moments ts) :
    Within (2 ^ (940 : Int)) m.seconds := by
  rw [Moment.seconds]
  by_cases hpos : Scalar.less Scalar.zero m.feed = true
  · rw [if_pos hpos]
    obtain ⟨w, hw, hleast⟩ := (moderate_feed h hm).per_second hpos
    have htime := (within_moderate_distance h hm).div hw hleast (by decide) (by decide)
    have hexponent : (502 : Int) - (-438) = 940 := by decide
    rwa [hexponent] at htime
  · rw [if_neg hpos]
    exact within_zero (by positivity)

theorem within_moderate_feeds (h : ∀ t ∈ ts, t.words.IsModerate) :
    ∀ v ∈ feeds ts, Within (2 ^ (964 : Int)) v := by
  intro v hv
  obtain ⟨hfeed, hpos⟩ := List.mem_filter.1 hv
  obtain ⟨m, hm, rfl⟩ := List.mem_map.1 hfeed
  obtain ⟨b, hb, hsize⟩ := moderate_feed h hm
  have hbpos := (less_iff value?_zero hb).1 hpos
  have hle : (10 : Rat) ^ 290 ≤ 2 ^ (964 : Int) := by decide +kernel
  obtain hnot | ⟨-, hfast⟩ := hsize
  · exact absurd hbpos (not_lt.2 hnot)
  · exact ⟨b, hb, (abs_of_pos hbpos).trans_le (hfast.trans hle)⟩

/-- A program of moderate words stays in range, however long it is. -/
theorem inRange_of_moderate (tolerance : Float) (h : ∀ t ∈ ts, t.words.IsModerate) :
    InRange tolerance ts := by
  constructor
  case xs => exact fun t ht v hv => ((h t ht).x v hv).isFinite
  case ys => exact fun t ht v hv => ((h t ht).y v hv).isFinite
  case rapids => exact fun m hm => (within_moderate_distance h (List.mem_filter.1 hm).1).isFinite
  case cuts => exact fun m hm => (within_moderate_distance h (List.mem_filter.1 hm).1).isFinite
  case cutTime =>
    refine isFinite_total (show (940 : Int) < 970 by decide) fun v hv => ?_
    obtain ⟨m, hm, rfl⟩ := List.mem_map.1 hv
    exact within_moderate_seconds h (List.mem_filter.1 hm).1
  case feedSum =>
    exact isFinite_total (show (964 : Int) < 970 by decide) (within_moderate_feeds h)
  case heightSum =>
    refine isFinite_total (show (499 : Int) < 970 by decide) fun v hv => ?_
    obtain ⟨t, ht, hz⟩ := List.mem_filterMap.1 hv
    exact ((h t ht).z v hz).mono (by decide +kernel)

end Modal
end BasRelief
