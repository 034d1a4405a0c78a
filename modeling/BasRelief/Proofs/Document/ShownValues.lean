import BasRelief.Number.Word
import BasRelief.Proofs.Document.Json.ReadBack
import BasRelief.Proofs.Document.Records

/-!
# Records as a document shows them

A document may change the doubles that are written into it; texts and numbers without a sign come
back as they are. A record is then decoded field by field from the values that the document shows.
-/

namespace BasRelief
open Document

/-- A change of values that a document makes, at most to doubles. -/
structure KeepsRest (shown : Value → Value) : Prop where
  natural : ∀ n < wordSize, shown (.natural n) = .natural n
  text : ∀ s, shown (.text s) = .text s

/-- A table with these entries as a document shows their values. -/
def shownTable (closed : Bool) (shown : Value → Value) (entries : List (String × Value)) : Value :=
  .table closed (entries.map fun e => (some e.1, shown e.2))

def shownDouble (d : Dialect) (shown : Value → Value) (x : Float) : Except DecodeError Float :=
  Decoder.float d (shown (.float x))

/-- The record of entries as a document shows their values. -/
def shownRecord (shown : Value → Value) (entries : List (String × Value)) : Record :=
  ⟨entries.map fun e => (e.1, shown e.2), false⟩

theorem of_shownTable {fields : List Field} {entries : List (String × Value)}
    (hown : Record.AreOwn fields (entries.map Prod.fst)) (hnodup : (entries.map Prod.fst).Nodup)
    (d : Dialect) (closed : Bool) (shown : Value → Value) :
    Record.of fields d (shownTable closed shown entries) = .ok (shownRecord shown entries) := by
  have hkeys : (entries.map fun e => (e.1, shown e.2)).map Prod.fst = entries.map Prod.fst := by
    rw [List.map_map]
    rfl
  have hof := Record.of_own (hkeys ▸ hown) (hkeys ▸ hnodup) d closed
  rw [List.map_map] at hof
  exact hof

theorem lookup_shown {shown : Value → Value} (entries : List (String × Value)) (key : String)
    {v : Value} (h : entries.lookup key = some v) :
    (shownRecord shown entries).values.lookup key = some (shown v) := by
  show (entries.map fun e => (e.1, shown e.2)).lookup key = some (shown v)
  induction entries with
  | nil => cases h
  | cons e entries ih =>
    rw [List.map_cons, List.lookup_cons]
    rw [List.lookup_cons] at h
    split at h
    · rw [Option.some.inj h]
    · exact ih h

theorem orDefault_shown {α : Type} {shown : Value → Value}
    (entries : List (String × Value)) (key : String) {v : Value}
    (h : entries.lookup key = some v) (d : Dialect) (default : α) (decode : Decoder α) :
    (shownRecord shown entries).orDefault d key default decode = decode d (shown v) := by
  unfold Record.orDefault
  rw [lookup_shown entries key h]

theorem required_shown_cons {α : Type} (shown : Value → Value) (e : String × Value)
    (entries : List (String × Value)) (key : String) (d : Dialect) (decode : Decoder α) :
    (shownRecord shown (e :: entries)).required d key decode =
      if key = e.1 then decode d (shown e.2)
      else (shownRecord shown entries).required d key decode := by
  unfold Record.required
  dsimp only [shownRecord]
  rw [List.map_cons, List.lookup_cons]
  by_cases h : key = e.1
  · rw [if_pos h, h, beq_self_eq_true]
  · rw [if_neg h, beq_false_of_ne h]

section
variable {shown : Value → Value} (h : KeepsRest shown) (d : Dialect)
include h

theorem octet_shown (n : UInt8) : Decoder.octet d (shown (.natural n.toNat)) = .ok n := by
  have hsize := n.toNat_lt
  have hword : n.toNat < wordSize := Nat.lt_trans hsize (by decide)
  have hfits : (0 : Int) ≤ (n.toNat : Int) ∧ (n.toNat : Int) < (256 : Nat) := by omega
  rw [h.natural _ hword]
  show (Decoder.naturalBelow 256 d (.integer n.toNat)).map UInt8.ofNat = _
  rw [Decoder.naturalBelow, if_pos hfits, Int.toNat_natCast]
  show Except.ok (UInt8.ofNat n.toNat) = _
  rw [UInt8.ofNat_toNat]

theorem natural_shown {n : Nat} (hn : n < wordSize) :
    Decoder.natural d (shown (.natural n)) = .ok n := by
  have hfits : (0 : Int) ≤ (n : Int) ∧ (n : Int) < (Nat.pow 2 64 : Nat) :=
    ⟨Int.natCast_nonneg n, Int.ofNat_lt.mpr hn⟩
  rw [h.natural _ hn]
  show Decoder.naturalBelow (Nat.pow 2 64) d (.integer n) = _
  rw [Decoder.naturalBelow, if_pos hfits, Int.toNat_natCast]

theorem text_shown (s : String) : Decoder.text d (shown (.text s)) = .ok s := by
  rw [h.text]
  rfl

end

/-! ### JSON -/

namespace Document.Json

theorem keepsRest_reread : KeepsRest reread where
  natural := by
    intro n hn
    have hlow : -Int.pow 2 63 ≤ (n : Int) := by
      show -(2 : Int) ^ 63 ≤ n
      omega
    have hhigh : (n : Int) < Int.pow 2 64 := Int.ofNat_lt.mpr hn
    show (wordValue? (integerText n)).getD .unreadable = .integer n
    rw [wordValue?_integerText hlow hhigh]
    rfl
  text := fun _ => rfl

theorem natural_reread {n : Nat} (hn : n < wordSize) :
    Decoder.natural .json (reread (.natural n)) = .ok n :=
  natural_shown keepsRest_reread .json hn

theorem rereadEntries_map (entries : List (String × Value)) :
    rereadEntries (entries.map fun e => (some e.1, e.2)) =
      entries.map fun e => (some e.1, reread e.2) := by
  induction entries with
  | nil => rfl
  | cons e entries ih => rw [List.map_cons, rereadEntries, ih]; rfl

theorem reread_record (entries : List (String × Value)) :
    reread (.record entries) = shownTable true reread entries := by
  show Value.table true (rereadEntries (entries.map fun e => (some e.1, e.2))) = _
  rw [rereadEntries_map]
  rfl

theorem rereadItems_eq_map (items : List Value) : rereadItems items = items.map reread := by
  induction items with
  | nil => rfl
  | cons v items ih => rw [rereadItems, ih, List.map_cons]

end Document.Json
end BasRelief
