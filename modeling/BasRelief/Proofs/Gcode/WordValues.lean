import BasRelief.Proofs.Gcode.MotionLine

/-!
# The values of a printed move

The token of a move gives to each axis the value that the text of its coordinate reads as, and to
the feed the value of its text. A text that is no numeral leaves its letter without a value.
-/

namespace BasRelief

def Words.setSome {α : Type} (w : Words α) (a : Axis) : Option α → Words α
  | some v => w.set a v
  | none => w

theorem Words.setSome_all {α : Type} (x y z f : Option α) :
    ((((({} : Words α).setSome .x x).setSome .y y).setSome .z z).setSome .f f) = ⟨x, y, z, f⟩ := by
  cases x <;> cases y <;> cases z <;> cases f <;> rfl

namespace Gcode
variable {α : Type} [Scalar α]

/-- What the text of a value with a fixed number of places reads as. -/
def readBack (places : Nat) (v : α) : Option α :=
  (Numeral.read? (Scalar.fixed places v).toList).map Scalar.ofNumeral

theorem foldl_assign_word (w : Words α) (a : Axis) (v : Option α) (text : α → String) :
    (((v.map fun v => (⟨a, (text v).toList⟩ : Occurrence)).toList.filter fun o =>
        (Numeral.read? o.text).isSome).foldl Occurrence.assign w) =
      w.setSome a (v.bind fun v => (Numeral.read? (text v).toList).map Scalar.ofNumeral) := by
  cases v with
  | none => rfl
  | some v =>
    rw [Option.map_some, Option.toList_some, List.filter_cons, List.filter_nil, Option.bind_some]
    cases hread : Numeral.read? (text v).toList with
    | none => rfl
    | some n =>
      have hassign : Occurrence.assign w ⟨a, (text v).toList⟩ = w.set a (Scalar.ofNumeral n) := by
        rw [Occurrence.assign, Occurrence.value?, hread]
        rfl
      exact hassign

theorem words_motionToken (m : Motion α) :
    (motionToken m).words =
      ⟨m.target.x.bind fun v => readBack 3 (thousandths v),
        m.target.y.bind fun v => readBack 3 (thousandths v),
        m.target.z.bind fun v => readBack 3 (thousandths v), m.feed.bind (readBack 0)⟩ := by
  have hcoordinate (w : Words α) (a : Axis) (v : Option α) :=
    foldl_assign_word w a v fun v => Scalar.fixed 3 (thousandths v)
  have hfeed (w : Words α) := foldl_assign_word w .f m.feed (Scalar.fixed 0)
  rw [← Words.setSome_all, motionToken, motionWords, List.filter_append, List.filter_append,
    List.filter_append, List.foldl_append, List.foldl_append, List.foldl_append]
  simp only [coordinate?, feed?, hcoordinate, hfeed]
  rfl

end Gcode
end BasRelief
