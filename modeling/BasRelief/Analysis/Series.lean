import BasRelief.Scalar

/-!
# Series

Greatest value, least value and mean of values that arrive one by one. A series without values has
zeros.
-/

namespace BasRelief

/-- The extremes, mean and count of a finished series (`ValueStats`). -/
structure SeriesStats (α : Type) where
  max : α
  min : α
  mean : α
  count : Nat
  deriving DecidableEq, Repr

/-- A series so far (`RunningStats`). -/
structure Series (α : Type) where
  max : α
  min : α
  sum : α
  count : Nat
  deriving DecidableEq, Repr

namespace SeriesStats

def none {α : Type} [Scalar α] : SeriesStats α := ⟨Scalar.zero, Scalar.zero, Scalar.zero, 0⟩

end SeriesStats

namespace Series
variable {α : Type} [Scalar α]

def empty : Series α := ⟨Scalar.zero, Scalar.zero, Scalar.zero, 0⟩

/-- The series with one more value; the first value is both extremes. -/
def push (s : Series α) (v : α) : Series α where
  max := if s.count = 0 then v else Scalar.maximum s.max v
  min := if s.count = 0 then v else Scalar.minimum s.min v
  sum := s.sum + v
  count := s.count + 1

def push? (s : Series α) : Option α → Series α
  | some v => s.push v
  | none => s

/-- The statistics at the end of a series (`RunningStats::finish`). -/
def stats (s : Series α) : SeriesStats α :=
  if s.count = 0 then .none else ⟨s.max, s.min, s.sum / Scalar.natural s.count, s.count⟩

def ofList (vs : List α) : Series α := vs.foldl push empty

theorem ofList_append_single (vs : List α) (v : α) :
    ofList (vs ++ [v]) = (ofList vs).push v := by
  simp [ofList]

theorem count_stats (s : Series α) : s.stats.count = s.count := by
  unfold stats
  split
  · exact Eq.symm ‹_›
  · rfl

theorem count_ofList (vs : List α) : (ofList vs).count = vs.length := by
  have key : ∀ (vs : List α) (s : Series α), (vs.foldl push s).count = s.count + vs.length := by
    intro vs
    induction vs with
    | nil => intro s; rfl
    | cons v vs ih => intro s; simp only [List.foldl_cons, ih, push, List.length_cons]; omega
  simpa [ofList, empty] using key vs empty

end Series
end BasRelief
