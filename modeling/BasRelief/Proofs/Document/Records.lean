import BasRelief.Document.Record

/-!
# Records of own keys

A table whose keys are the keys of fields, each at most once, is a record of just these entries. A
choice by text takes the names that it lists.
-/

namespace BasRelief.Document

theorem lookup_eq_none {α : Type} {entries : List (String × α)} {key : String}
    (h : key ∉ entries.map Prod.fst) : entries.lookup key = none := by
  rw [List.lookup_eq_none_iff]
  intro e he
  rw [bne_iff_ne]
  rintro rfl
  exact h (List.mem_map_of_mem he)

theorem lookup_eq_some_iff {α : Type} {entries : List (String × α)}
    (h : (entries.map Prod.fst).Nodup) {key : String} {a : α} :
    entries.lookup key = some a ↔ (key, a) ∈ entries := by
  rw [List.lookup_eq_some_iff]
  constructor
  · rintro ⟨before, after, rfl, _⟩
    exact List.mem_append_right _ List.mem_cons_self
  · intro he
    obtain ⟨before, after, rfl⟩ := List.append_of_mem he
    refine ⟨before, after, rfl, fun e hbefore => bne_iff_ne.mpr fun heq => ?_⟩
    rw [List.map_append, List.map_cons] at h
    exact (List.nodup_append.mp h).2.2 e.1 (List.mem_map_of_mem hbefore) key List.mem_cons_self
      heq.symm

/-! ### Choices -/

theorem Decoder.choice_text_eq_ok_iff {α : Type} {names : List (String × α)}
    (h : (names.map Prod.fst).Nodup) (d : Dialect) {s : String} {a : α} :
    Decoder.choice names d (.text s) = .ok a ↔ (s, a) ∈ names := by
  rw [← lookup_eq_some_iff h]
  cases hlookup : names.lookup s <;>
    simp [Decoder.choice, variant, bind, Except.bind, hlookup]

namespace Record

/-- Every key is the key of a field, and not another name for it. -/
def AreOwn (fields : List Field) (keys : List String) : Prop :=
  ∀ key ∈ keys, (fieldOf? fields key).map Field.key = some key

instance (fields : List Field) (keys : List String) : Decidable (AreOwn fields keys) :=
  inferInstanceAs (Decidable (∀ key ∈ keys, _))

/-- One entry more, as `known` takes the entries one by one. -/
def addEntry (fields : List Field) (values : List (String × Value)) :
    Option String × Value → Except DecodeError (List (String × Value))
  | (none, _) => .error (.expected "key")
  | (some key, v) =>
    match fieldOf? fields key with
    | none => .ok values
    | some f =>
      if (values.lookup f.key).isSome then .error (.duplicate f.key)
      else .ok (values ++ [(f.key, v)])

theorem known_eq (fields : List Field) (entries : List (Option String × Value)) :
    known fields entries = entries.foldlM (addEntry fields) [] := by
  unfold known
  congr
  funext values e
  obtain ⟨key, v⟩ := e
  cases key <;> rfl

theorem addEntry_own {fields : List Field} {values : List (String × Value)} {key : String}
    (hown : (fieldOf? fields key).map Field.key = some key) (hfresh : key ∉ values.map Prod.fst)
    (v : Value) : addEntry fields values (some key, v) = .ok (values ++ [(key, v)]) := by
  obtain ⟨f, hfield, hkey⟩ := Option.map_eq_some_iff.mp hown
  rw [addEntry, hfield]
  dsimp only
  rw [hkey, lookup_eq_none hfresh]
  rfl

/-- Entries are added to those before them, as long as no key comes again. -/
theorem foldlM_addEntry {fields : List Field} {entries : List (String × Value)}
    (hown : AreOwn fields (entries.map Prod.fst)) (done : List (String × Value))
    (hnodup : ((done ++ entries).map Prod.fst).Nodup) :
    (entries.map fun e => (some e.1, e.2)).foldlM (addEntry fields) done =
      .ok (done ++ entries) := by
  induction entries generalizing done with
  | nil => rw [List.append_nil]; rfl
  | cons e entries ih =>
    obtain ⟨key, v⟩ := e
    have hfresh : key ∉ done.map Prod.fst := by
      intro hmem
      rw [List.map_append] at hnodup
      exact (List.nodup_append.mp hnodup).2.2 key hmem key (by simp) rfl
    have hassoc : done ++ (key, v) :: entries = done ++ [(key, v)] ++ entries := by simp
    rw [List.map_cons, List.foldlM_cons, addEntry_own (hown key List.mem_cons_self) hfresh]
    rw [hassoc] at hnodup ⊢
    exact ih (fun key hmem => hown key (List.mem_cons_of_mem _ hmem)) (done ++ [(key, v)]) hnodup

/-- Reading a table of own keys keeps its entries as they are. -/
theorem of_own {fields : List Field} {entries : List (String × Value)}
    (hown : AreOwn fields (entries.map Prod.fst)) (hnodup : (entries.map Prod.fst).Nodup)
    (d : Dialect) (closed : Bool) :
    of fields d (.table closed (entries.map fun e => (some e.1, e.2))) = .ok ⟨entries, false⟩ := by
  rw [of, known_eq, foldlM_addEntry hown [] hnodup]
  rfl

end Record
end BasRelief.Document
