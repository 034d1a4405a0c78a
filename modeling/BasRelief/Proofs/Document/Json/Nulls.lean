import BasRelief.Proofs.Document.Json.ReadableDoubles
import BasRelief.Proofs.Document.ShownValues

/-!
# Nulls in place of numbers

A double that is finite is read back as a double, and one that is not is written as null. Where a
number is required, null is refused, so the doubles of a document are decoded just when they were
finite.
-/

namespace BasRelief
open Document

/-! ### Doubles -/

namespace Document.Json
open Double

theorem reread_float (x : Float) :
    (Scalar.isFinite x = true ∧ ∃ y, reread (.float x) = .float y) ∨
      (Scalar.isFinite x = false ∧ reread (.float x) = .null) := by
  show (_ ∧ ∃ y, (wordValue? (floatText x)).getD .unreadable = .float y) ∨
    (_ ∧ (wordValue? (floatText x)).getD .unreadable = .null)
  cases hx : value? x with
  | some a =>
    obtain ⟨y, hy⟩ := exists_reread? hx
    rw [wordValue?_floatText hx, hy]
    exact .inl ⟨(isFinite_iff x).2 ⟨a, hx⟩, y, rfl⟩
  | none =>
    have hnot : ¬Scalar.isFinite x = true := by
      rw [isFinite_iff]
      rintro ⟨a, ha⟩
      cases hx.symm.trans ha
    rw [floatText_of_not_finite hx]
    exact .inr ⟨Bool.eq_false_iff.2 hnot, rfl⟩

/-- A double as a decoder finds it in a document. -/
def readDouble (x : Float) : Except DecodeError Float := shownDouble .json reread x

theorem exists_readDouble_iff (x : Float) :
    (∃ y, readDouble x = .ok y) ↔ Scalar.isFinite x = true := by
  unfold readDouble shownDouble
  obtain ⟨hfinite, y, hy⟩ | ⟨hnot, hnull⟩ := reread_float x
  · rw [hy]
    exact iff_of_true ⟨y, rfl⟩ hfinite
  · rw [hnull, hnot]
    exact iff_of_false (fun ⟨_, h⟩ => by cases h) Bool.false_ne_true

theorem reread_array (items : List Value) : reread (.array items) = .array (items.map reread) := by
  rw [reread, rereadItems_eq_map]

theorem mapM_float (xs : List Float) :
    Decoder.list .float .json (reread (.array (xs.map .float))) = xs.mapM readDouble := by
  rw [reread_array, List.map_map]
  show (xs.map (reread ∘ Value.float)).mapM (Decoder.float .json) = _
  rw [List.mapM_map]
  rfl

end Document.Json

/-! ### Nulls -/

namespace Document.Value

mutual

/-- How many values in a value are null. -/
def nulls : Value → Nat
  | .null => 1
  | .array items => itemNulls items
  | .table _ entries => entryNulls entries
  | _ => 0

def itemNulls : List Value → Nat
  | [] => 0
  | v :: vs => nulls v + itemNulls vs

def entryNulls : List (Option String × Value) → Nat
  | [] => 0
  | (_, v) :: rest => nulls v + entryNulls rest

end

theorem itemNulls_eq_sum (items : List Value) : itemNulls items = (items.map nulls).sum := by
  induction items with
  | nil => rfl
  | cons v items ih => rw [itemNulls, ih, List.map_cons, List.sum_cons]

theorem entryNulls_eq_sum (entries : List (Option String × Value)) :
    entryNulls entries = (entries.map fun e => nulls e.2).sum := by
  induction entries with
  | nil => rfl
  | cons e entries ih =>
    rw [entryNulls, ih, List.map_cons, List.sum_cons]

end Document.Value

namespace Document.Json

theorem nulls_record (entries : List (String × Value)) :
    (reread (.record entries)).nulls = (entries.map fun e => (reread e.2).nulls).sum := by
  rw [reread_record, shownTable, Value.nulls, Value.entryNulls_eq_sum, List.map_map]
  rfl

theorem nulls_array (items : List Value) :
    (reread (.array items)).nulls = (items.map fun v => (reread v).nulls).sum := by
  rw [reread_array, Value.nulls, Value.itemNulls_eq_sum, List.map_map]
  rfl

theorem nulls_natural {n : Nat} (hn : n < wordSize) : (reread (.natural n)).nulls = 0 := by
  rw [keepsRest_reread.natural n hn]
  rfl

/-- The doubles that a document cannot show. -/
def notFinite (xs : List Float) : Nat := xs.countP fun x => !Scalar.isFinite x

theorem notFinite_append (xs ys : List Float) :
    notFinite (xs ++ ys) = notFinite xs + notFinite ys := List.countP_append

theorem notFinite_cons (x : Float) (xs : List Float) :
    notFinite (x :: xs) = (reread (.float x)).nulls + notFinite xs := by
  have hone : (reread (.float x)).nulls = if !Scalar.isFinite x then 1 else 0 := by
    obtain ⟨hfinite, y, hy⟩ | ⟨hnot, hnull⟩ := reread_float x
    · rw [hy, hfinite]
      rfl
    · rw [hnull, hnot]
      rfl
  rw [notFinite, List.countP_cons, hone, Nat.add_comm]
  rfl

theorem nulls_floats (xs : List Float) :
    (reread (.array (xs.map .float))).nulls = notFinite xs := by
  rw [nulls_array, List.map_map]
  induction xs with
  | nil => rfl
  | cons x xs ih =>
    rw [notFinite_cons, List.map_cons, List.sum_cons, ih]
    rfl

theorem notFinite_eq_zero_iff (xs : List Float) :
    notFinite xs = 0 ↔ ∀ x ∈ xs, Scalar.isFinite x = true := by
  simp [notFinite]

end Document.Json
end BasRelief
