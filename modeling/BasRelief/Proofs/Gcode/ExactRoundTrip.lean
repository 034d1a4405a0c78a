import BasRelief.Proofs.Decimal.ExactText
import BasRelief.Proofs.Gcode.WordValues

/-!
# A printed move in exact arithmetic

On fractions the line of a move says where the move goes to the thousandth, and how fast to the
whole number. Its token therefore makes a move with the same line, and no coordinate is a negative
zero.
-/

namespace BasRelief

namespace Exact

/-- A fraction to the thousandth, half away from zero. -/
def NearestThousandth (v r : Rat) : Prop := ∃ k : Int, r = k / 1000 ∧ NearestAway (v * 1000) k

/-- A fraction to the whole number, half to even. -/
def NearestWhole (v r : Rat) : Prop := ∃ k : Int, r = k ∧ NearestEven v k

end Exact

namespace Gcode
open Exact

/-! ### Coordinates -/

theorem thousandths_eq_round (v : Rat) : thousandths v = Exact.round (v * 1000) / 1000 := by
  have hscale : (Scalar.natural 1000 : Rat) = 1000 := by
    show ((1000 : Nat) : Rat) = 1000
    norm_num
  have hzero : (Scalar.zero : Rat) = 0 := by
    show ((0 : Nat) : Rat) = 0
    norm_num
  have hequal {a b : Rat} (h : Scalar.equal a b = true) : a = b := by
    simp only [Scalar.equal, Bool.and_eq_true] at h
    exact le_antisymm (of_decide_eq_true h.1) (of_decide_eq_true h.2)
  unfold thousandths
  dsimp only
  rw [hscale, hzero]
  split
  · exact (hequal ‹_›).symm
  · rfl

theorem nearestThousandth_thousandths (v : Rat) : NearestThousandth v (thousandths v) :=
  ⟨_, by rw [thousandths_eq_round, round_eq_signed], nearestAway_signed (v * 1000)⟩

theorem thousandths_units (k : Int) : thousandths (k / 1000 : Rat) = k / 1000 := by
  rw [thousandths_eq_round, div_mul_cancel₀ _ (by norm_num), round_intCast]

theorem thousandths_thousandths (v : Rat) : thousandths (thousandths v) = thousandths v := by
  obtain ⟨k, hk, _⟩ := nearestThousandth_thousandths v
  rw [hk, thousandths_units]

theorem fixed_thousandths (k : Int) :
    (Scalar.fixed 3 (k / 1000 : Rat)).toList =
      Decimal.signed (decide (k < 0)) (Decimal.placed 3 k.natAbs) := by
  have htext := fixed_units 3 k
  norm_num at htext
  show (Exact.fixed 3 (k / 1000 : Rat)).toList = _
  rw [htext, String.toList_ofList]

theorem readBack_thousandths (v : Rat) : readBack 3 (thousandths v) = some (thousandths v) := by
  obtain ⟨k, hk, _⟩ := nearestThousandth_thousandths v
  have hvalue := toRat_units k 3
  norm_num at hvalue
  rw [hk, readBack, fixed_thousandths, Numeral.read?_signed_placed, Option.map_some]
  exact congrArg some hvalue

/-! ### Feeds -/

def wholeFeed (f : Rat) : Rat := signed f (Decimal.nearestEven f.num.natAbs f.den)

theorem fixed_zero (f : Rat) :
    (Scalar.fixed 0 f).toList =
      Decimal.signed (decide (f < 0))
        (Decimal.placed 0 (Decimal.nearestEven f.num.natAbs f.den)) := by
  have hone : f.num.natAbs * Nat.pow 10 0 = f.num.natAbs := Nat.mul_one _
  show (Exact.fixed 0 f).toList = _
  rw [Exact.fixed, String.toList_ofList, Decimal.fixed, hone]

theorem readBack_feed (f : Rat) : readBack 0 f = some (wholeFeed f) := by
  have hvalue : Numeral.toRat ⟨decide (f < 0), Decimal.nearestEven f.num.natAbs f.den, -(0 : Nat)⟩ =
      wholeFeed f := by
    unfold Numeral.toRat wholeFeed signed
    by_cases h : f < 0 <;> simp [h]
  rw [readBack, fixed_zero, Numeral.read?_signed_placed, Option.map_some]
  exact congrArg some hvalue

theorem nearestWhole_wholeFeed (f : Rat) : NearestWhole f (wholeFeed f) :=
  ⟨_, rfl, nearestEven_signed f⟩

theorem fixed_wholeFeed {f : Rat} (h : 0 ≤ f) :
    Scalar.fixed 0 (wholeFeed f) = Scalar.fixed 0 f := by
  have hwhole : wholeFeed f = (Decimal.nearestEven f.num.natAbs f.den : Int) := by
    rw [wholeFeed, signed, if_neg (not_lt.mpr h)]
  have hunits := fixed_units 0 (Decimal.nearestEven f.num.natAbs f.den : Int)
  rw [pow_zero, div_one, decide_eq_false (by omega), Int.natAbs_natCast] at hunits
  apply String.toList_inj.mp
  rw [fixed_zero f, decide_eq_false (not_lt.mpr h), hwhole]
  show (Exact.fixed 0 _).toList = _
  rw [hunits, String.toList_ofList]

/-! ### The token of a move -/

def Token.command? {α : Type} (t : Token α) : Option (Motion α) :=
  let target : Target α := ⟨t.words.x, t.words.y, t.words.z⟩
  match t.motion with
  | some .rapid => some (.rapid target t.words.f)
  | some .cut => some (.cut target t.words.f)
  | _ => none

/-- A move with its coordinates to the thousandth and its feed to the whole number. -/
def roundMotion (m : Motion Rat) : Motion Rat :=
  let target : Target Rat :=
    ⟨m.target.x.map thousandths, m.target.y.map thousandths, m.target.z.map thousandths⟩
  match m with
  | .rapid _ feed => .rapid target (feed.map wholeFeed)
  | .cut _ feed => .cut target (feed.map wholeFeed)

theorem words_motionToken_exact (m : Motion Rat) :
    (motionToken m).words =
      ⟨m.target.x.map thousandths, m.target.y.map thousandths, m.target.z.map thousandths,
        m.feed.map wholeFeed⟩ := by
  have hcoordinate : (fun v : Rat => readBack 3 (thousandths v)) = some ∘ thousandths :=
    funext readBack_thousandths
  have hfeed : (readBack 0 : Rat → Option Rat) = some ∘ wholeFeed := funext readBack_feed
  simp only [words_motionToken, hcoordinate, hfeed, Option.map_eq_bind]

theorem command?_motionToken (m : Motion Rat) :
    (motionToken m).command? = some (roundMotion m) := by
  have hwords := words_motionToken_exact m
  unfold Token.command? roundMotion
  rw [hwords]
  cases m <;> rfl

theorem motionLine_roundMotion {m : Motion Rat} (h : ∀ f ∈ m.feed, 0 ≤ f) :
    motionLine (roundMotion m) = motionLine m := by
  have hword : moveWord (roundMotion m) = moveWord m := by cases m <;> rfl
  have htarget : (roundMotion m).target =
      ⟨m.target.x.map thousandths, m.target.y.map thousandths, m.target.z.map thousandths⟩ := by
    cases m <;> rfl
  have hfeed : feedWord (roundMotion m).feed = feedWord m.feed := by
    have hround : (roundMotion m).feed = m.feed.map wholeFeed := by cases m <;> rfl
    rw [hround]
    cases hf : m.feed with
    | none => rfl
    | some f => rw [Option.map_some, feedWord, fixed_wholeFeed (h f hf), feedWord]
  have hcoordinate (a : Axis) (v : Option Rat) :
      coordinateWord a (v.map thousandths) = coordinateWord a v := by
    cases v with
    | none => rfl
    | some v => rw [Option.map_some, coordinateWord, thousandths_thousandths, coordinateWord]
  simp only [motionLine, hword, htarget, hfeed, hcoordinate]

/-- The numeral of a word that is written for a move is not a negative zero. -/
theorem unsigned_zero_of_mem_motionWords {m : Motion Rat} (h : ∀ f ∈ m.feed, 0 ≤ f)
    {o : Occurrence} (ho : o ∈ motionWords m) {n : Numeral} (hn : Numeral.read? o.text = some n)
    (hzero : n.coefficient = 0) : n.negative = false := by
  have hcoordinate {a : Axis} {v : Option Rat} (ho : o ∈ (coordinate? a v).toList) :
      n.negative = false := by
    obtain ⟨v, _, rfl⟩ := Option.map_eq_some_iff.mp (Option.mem_toList.mp ho)
    obtain ⟨k, hk, _⟩ := nearestThousandth_thousandths v
    rw [hk, fixed_thousandths, Numeral.read?_signed_placed] at hn
    obtain rfl := Option.some.inj hn
    exact decide_eq_false (by have : k.natAbs = 0 := hzero; omega)
  have hfeed (ho : o ∈ (feed? m.feed).toList) : n.negative = false := by
    obtain ⟨f, hf, rfl⟩ := Option.map_eq_some_iff.mp (Option.mem_toList.mp ho)
    rw [fixed_zero, Numeral.read?_signed_placed] at hn
    obtain rfl := Option.some.inj hn
    exact decide_eq_false (not_lt.mpr (h f hf))
  simp only [motionWords, List.mem_append] at ho
  obtain ((ho | ho) | ho) | ho := ho
  · exact hcoordinate ho
  · exact hcoordinate ho
  · exact hcoordinate ho
  · exact hfeed ho

/-- What a token says of the move whose line it was read from. -/
structure Recovers (m : Motion Rat) (t : Token Rat) : Prop where
  gNumber : t.gNumber = some (if m.isCut then 1 else 0)
  warnings : t.warnings = []
  x : Option.Rel NearestThousandth m.target.x t.words.x
  y : Option.Rel NearestThousandth m.target.y t.words.y
  z : Option.Rel NearestThousandth m.target.z t.words.z
  feed : Option.Rel NearestWhole m.feed t.words.f
  /-- The move that the token asks for has the same line. -/
  again : ∃ c, t.command? = some c ∧ motionLine c = motionLine m

theorem rel_map {β γ : Type} {r : β → γ → Prop} {f : β → γ} (h : ∀ v, r v (f v)) (v : Option β) :
    Option.Rel r v (v.map f) := by
  cases v with
  | none => exact .none
  | some v => exact .some (h v)

theorem recovers_motionToken {m : Motion Rat} (h : ∀ f ∈ m.feed, 0 ≤ f) :
    Recovers m (motionToken m) := by
  have hwords := words_motionToken_exact m
  refine ⟨by cases m <;> rfl, rfl, ?_, ?_, ?_, ?_, _, command?_motionToken m,
    motionLine_roundMotion h⟩
  · rw [hwords]
    exact rel_map nearestThousandth_thousandths m.target.x
  · rw [hwords]
    exact rel_map nearestThousandth_thousandths m.target.y
  · rw [hwords]
    exact rel_map nearestThousandth_thousandths m.target.z
  · rw [hwords]
    exact rel_map nearestWhole_wholeFeed m.feed

theorem mem_motionWords_of_occurrences {m : Motion Rat} {o : Occurrence}
    (h : o ∈ occurrences (motionLine m).toList) : o ∈ motionWords m := by
  have hfound := occurrences_valueWords (fun o => valueText_of_mem_motionWords (m := m))
    (headWord_moveWord m).found
  rw [toList_motionLine, hfound] at h
  exact (List.mem_filter.mp h).1

end Gcode
end BasRelief
