import BasRelief.Field.Palette
import Mathlib.Data.Prod.Lex
import Mathlib.Tactic.Linarith

/-!
# The first of the nearest colours

A scan that gives up its best entry for strictly nearer ones alone ends with the entry whose
distance is least and, of those, the one that is declared first. The distance to the best entry is
carried along, and all that it is computed from fits into 32 bits.
-/

namespace BasRelief.Palette

/-! ### The least pair of distance and place -/

/-- No entry is nearer, and no earlier one is as near. -/
structure FirstNearest (color : Rgb) (seen : List PaletteEntry) (i : Nat)
    (best : PaletteEntry) : Prop where
  getElem?_eq : seen[i]? = some best
  le : ∀ (j : Nat) (entry : PaletteEntry), seen[j]? = some entry →
    squaredDistance color best.color ≤ squaredDistance color entry.color
  lt : ∀ (j : Nat) (entry : PaletteEntry), seen[j]? = some entry → j < i →
    squaredDistance color best.color < squaredDistance color entry.color

variable {color : Rgb} {seen : List PaletteEntry} {i : Nat} {best : PaletteEntry}

theorem firstNearest_iff_lex :
    FirstNearest color seen i best ↔ seen[i]? = some best ∧
      ∀ (j : Nat) (entry : PaletteEntry), seen[j]? = some entry →
        toLex (squaredDistance color best.color, i) ≤
          toLex (squaredDistance color entry.color, j) := by
  constructor
  · rintro ⟨hbest, hle, hlt⟩
    refine ⟨hbest, fun j entry hentry => Prod.Lex.toLex_le_toLex.mpr ?_⟩
    obtain hnearer | hequal := (hle j entry hentry).lt_or_eq
    · exact .inl hnearer
    · refine .inr ⟨hequal, Nat.le_of_not_lt fun hj => ?_⟩
      exact (hlt j entry hentry hj).ne hequal
  · rintro ⟨hbest, hleast⟩
    have hpair := fun j entry hentry => Prod.Lex.toLex_le_toLex.mp (hleast j entry hentry)
    refine ⟨hbest, fun j entry hentry => ?_, fun j entry hentry hj => ?_⟩
    · obtain hnearer | ⟨hequal, _⟩ := hpair j entry hentry
      · exact hnearer.le
      · exact hequal.le
    · obtain hnearer | ⟨_, hplace⟩ := hpair j entry hentry
      · exact hnearer
      · exact absurd hj (Nat.not_lt.mpr hplace)

theorem firstNearest_singleton (color : Rgb) (first : PaletteEntry) :
    FirstNearest color [first] 0 first where
  getElem?_eq := rfl
  le j entry hentry := by
    obtain rfl := List.mem_singleton.mp (List.mem_of_getElem? hentry)
    exact le_rfl
  lt j entry _ hj := absurd hj (Nat.not_lt_zero j)

/-- The next entry takes the place of the best one if it is strictly nearer, and else leaves it. -/
theorem FirstNearest.snoc (h : FirstNearest color seen i best) (entry : PaletteEntry) :
    ∃ j, FirstNearest color (seen ++ [entry]) j (closer color best entry) := by
  have hplaces : ∀ (j : Nat) (e : PaletteEntry), (seen ++ [entry])[j]? = some e →
      (j < seen.length ∧ seen[j]? = some e) ∨ (j = seen.length ∧ e = entry) := by
    intro j e he
    obtain hseen | hlast := Nat.lt_or_ge j seen.length
    · exact .inl ⟨hseen, by rwa [List.getElem?_append_left hseen] at he⟩
    · rw [List.getElem?_append_right hlast, List.getElem?_singleton] at he
      split at he
      · exact .inr ⟨by omega, (Option.some.inj he).symm⟩
      · cases he
  have hi : i < seen.length := (List.getElem?_eq_some_iff.mp h.getElem?_eq).1
  unfold Palette.closer
  split
  case isTrue hnearer =>
    refine ⟨seen.length, by simp, fun j e he => ?_, fun j e he hj => ?_⟩
    · obtain ⟨_, hseen⟩ | ⟨_, rfl⟩ := hplaces j e he
      · exact hnearer.le.trans (h.le j e hseen)
      · exact le_rfl
    · obtain ⟨_, hseen⟩ | ⟨hlast, _⟩ := hplaces j e he
      · exact hnearer.trans_le (h.le j e hseen)
      · exact absurd hj hlast.not_lt
  case isFalse hnearer =>
    refine ⟨i, by rw [List.getElem?_append_left hi, h.getElem?_eq], fun j e he => ?_,
      fun j e he hj => ?_⟩
    · obtain ⟨_, hseen⟩ | ⟨_, rfl⟩ := hplaces j e he
      · exact h.le j e hseen
      · exact Nat.not_lt.mp hnearer
    · obtain ⟨_, hseen⟩ | ⟨hlast, _⟩ := hplaces j e he
      · exact h.lt j e hseen hj
      · omega

/-- What is best of the entries seen so far stays ahead of them to the end. -/
theorem FirstNearest.append (h : FirstNearest color seen i best) (rest : List PaletteEntry) :
    ∃ j, FirstNearest color (seen ++ rest) j (rest.foldl (Palette.closer color) best) := by
  induction rest generalizing seen i best with
  | nil => exact ⟨i, by simpa using h⟩
  | cons entry rest ih =>
    obtain ⟨j, hj⟩ := h.snoc entry
    simpa using ih hj

theorem firstNearest_nearestOf (color : Rgb) (first : PaletteEntry) (rest : List PaletteEntry) :
    ∃ i, FirstNearest color (first :: rest) i (nearestOf color first rest) :=
  (firstNearest_singleton color first).append rest

/-! ### The scan in 32 bits -/

def signed32? (n : Int) : Option Int := if -2 ^ 31 ≤ n ∧ n < 2 ^ 31 then some n else none

def unsigned32? (n : Int) : Option Nat := if 0 ≤ n ∧ n < 2 ^ 32 then some n.toNat else none

def channels (color : Rgb) : List UInt8 := [color.red, color.green, color.blue]

/-- `squaredGap` as it is computed: nothing where an intermediate result is out of range. -/
def squaredGap? (a b : UInt8) : Option Nat := do
  let gap ← signed32? ((a.toNat : Int) - b.toNat)
  let square ← signed32? (gap * gap)
  unsigned32? square

def addGap? (sum : Nat) (pair : UInt8 × UInt8) : Option Nat := do
  let gap ← squaredGap? pair.1 pair.2
  unsigned32? (sum + gap : Nat)

def squaredDistance? (a b : Rgb) : Option Nat :=
  ((channels a).zip (channels b)).foldlM addGap? 0

/-- The best entry together with its distance, after one more entry. -/
def weigh? (color : Rgb) (best : PaletteEntry × Nat) (entry : PaletteEntry) :
    Option (PaletteEntry × Nat) := do
  let distance ← squaredDistance? color entry.color
  return if distance < best.2 then (entry, distance) else best

def scan? (color : Rgb) (first : PaletteEntry) (rest : List PaletteEntry) :
    Option PaletteEntry := do
  let distance ← squaredDistance? color first.color
  let best ← rest.foldlM (weigh? color) (first, distance)
  return best.1

theorem signed32?_eq {n : Int} (hlow : -2 ^ 31 ≤ n) (hhigh : n < 2 ^ 31) :
    signed32? n = some n := if_pos ⟨hlow, hhigh⟩

theorem unsigned32?_eq {n : Int} (hlow : 0 ≤ n) (hhigh : n < 2 ^ 32) :
    unsigned32? n = some n.toNat := if_pos ⟨hlow, hhigh⟩

theorem unsigned32?_natCast {n : Nat} (h : n < 2 ^ 32) : unsigned32? n = some n := by
  rw [unsigned32?_eq (Int.natCast_nonneg n) (by omega), Int.toNat_natCast]

theorem gap_mul_self_le (a b : UInt8) :
    ((a.toNat : Int) - b.toNat) * (a.toNat - b.toNat) ≤ 65025 := by
  have ha := a.toNat_lt
  have hb := b.toNat_lt
  nlinarith

theorem squaredGap_le (a b : UInt8) : squaredGap a b ≤ 65025 := by
  have hsquare := gap_mul_self_le a b
  simp only [squaredGap]
  omega

theorem squaredGap?_eq (a b : UInt8) : squaredGap? a b = some (squaredGap a b) := by
  have ha := a.toNat_lt
  have hb := b.toNat_lt
  have hsquare := gap_mul_self_le a b
  have hnonneg := mul_self_nonneg ((a.toNat : Int) - b.toNat)
  rw [squaredGap?, signed32?_eq (by omega) (by omega), Option.bind_eq_bind, Option.bind_some,
    signed32?_eq (by omega) (by omega)]
  exact unsigned32?_eq hnonneg (by omega)

theorem addGap?_eq {sum : Nat} (a b : UInt8) (hsum : sum ≤ 130050) :
    addGap? sum (a, b) = some (sum + squaredGap a b) := by
  have hgap := squaredGap_le a b
  have hfits : sum + squaredGap a b < 2 ^ 32 := by omega
  rw [addGap?, squaredGap?_eq, Option.bind_eq_bind, Option.bind_some, unsigned32?_natCast hfits]

theorem squaredDistance?_eq (a b : Rgb) : squaredDistance? a b = some (squaredDistance a b) := by
  have hred := squaredGap_le a.red b.red
  have hgreen := squaredGap_le a.green b.green
  simp only [squaredDistance?, channels, List.zip_cons_cons, List.zip_nil_right,
    List.foldlM_cons, List.foldlM_nil, Option.bind_eq_bind, Option.pure_def]
  rw [addGap?_eq _ _ (by omega), Option.bind_some, addGap?_eq _ _ (by omega), Option.bind_some,
    addGap?_eq _ _ (by omega), Option.bind_some, Nat.zero_add, squaredDistance]

/-- The distance that is carried along is that of the best entry. -/
theorem foldlM_weigh? (color : Rgb) (best : PaletteEntry) (rest : List PaletteEntry) :
    rest.foldlM (weigh? color) (best, squaredDistance color best.color) =
      some (rest.foldl (closer color) best,
        squaredDistance color (rest.foldl (closer color) best).color) := by
  induction rest generalizing best with
  | nil => rfl
  | cons entry rest ih =>
    have hstep : weigh? color (best, squaredDistance color best.color) entry =
        some (closer color best entry, squaredDistance color (closer color best entry).color) := by
      rw [weigh?, squaredDistance?_eq]
      unfold closer
      split <;> simp_all
    rw [List.foldlM_cons, hstep]
    exact ih (closer color best entry)

theorem scan?_eq (color : Rgb) (first : PaletteEntry) (rest : List PaletteEntry) :
    scan? color first rest = some (nearestOf color first rest) := by
  rw [scan?, squaredDistance?_eq, Option.bind_eq_bind, Option.bind_some, foldlM_weigh?]
  rfl

/-- The nearest entry is the one with the least pair of distance and place, whatever the entries
are, and no intermediate result of its scan is out of range. -/
theorem nearest_lex_least (color : Rgb) :
    (∃ i, FirstNearest color entries i (nearest color)) ∧
      (∀ first rest, ∃ i, FirstNearest color (first :: rest) i (nearestOf color first rest) ∧
        ∀ (j : Nat) (entry : PaletteEntry), (first :: rest)[j]? = some entry →
          toLex (squaredDistance color (nearestOf color first rest).color, i) ≤
            toLex (squaredDistance color entry.color, j)) ∧
      (∀ first rest, scan? color first rest = some (nearestOf color first rest)) ∧
      ∀ other, squaredDistance? color other = some (squaredDistance color other) := by
  refine ⟨firstNearest_nearestOf color white others, fun first rest => ?_, scan?_eq color,
    squaredDistance?_eq color⟩
  obtain ⟨i, hi⟩ := firstNearest_nearestOf color first rest
  exact ⟨i, hi, (firstNearest_iff_lex.mp hi).2⟩

end BasRelief.Palette
