import BasRelief.Proofs.Document.Records
import BasRelief.Proofs.Document.Toml.Numbers
import BasRelief.Proofs.Document.Toml.Texts

/-!
# TOML sections read back

A document of sections is read line by line as the table that was written. Keys are bare, and no
key comes twice in its section.
-/

namespace BasRelief.Document.Toml

/-! ### Values -/

/-- A double that is not finite is written as a word. -/
def IsFinite (v : Value) : Prop := ∀ x, v = .float x → ∃ a, Double.value? x = some a

theorem head_textLiteral (cs : List Char) :
    ∃ tail, textLiteral cs = '"' :: tail ∨ textLiteral cs = '\'' :: tail := by
  unfold textLiteral
  split
  · exact ⟨_, .inl rfl⟩
  · exact ⟨_, .inr rfl⟩
  · exact ⟨_, .inl rfl⟩
  · exact ⟨_, .inr rfl⟩

theorem value?_textLiteral (depth : Nat) (s : String) (rest : List Char) :
    value? depth (textLiteral s.toList ++ '\n' :: rest) = some (.text s, '\n' :: rest) := by
  have hread := text?_textLiteral s.toList rest
  have hback : String.ofList s.toList = s := String.ofList_toList
  obtain ⟨tail, htext | htext⟩ := head_textLiteral s.toList
  all_goals
    rw [htext, List.cons_append] at hread ⊢
    rw [value?, hread, Option.map_some]
    dsimp only
    rw [hback]

/-- What is written for a scalar is read as that scalar, up to the end of its line. -/
theorem value?_scalarText {v : Value} {cs : List Char} (h : scalarText v = .ok cs)
    (hfinite : IsFinite v) (depth : Nat) (rest : List Char) :
    value? depth (cs ++ '\n' :: rest) = some (v, '\n' :: rest) := by
  unfold scalarText at h
  split at h
  · next n =>
    split at h
    · next hrange =>
      cases h
      have hnumber := isNumber_integerText n
      rw [hnumber.value?_eq, hnumber.run?_eq, scalar?_integerText hrange.1 hrange.2]
      rfl
    · cases h
  · next x =>
    cases h
    obtain ⟨a, ha⟩ := hfinite x rfl
    have hnumber := isNumber_floatText ha
    rw [hnumber.value?_eq, hnumber.run?_eq, scalar?_floatText ha]
    rfl
  · split at h
    · cases h
    · cases h
      exact value?_textLiteral depth _ rest
  · cases h

theorem head_scalarText {v : Value} {cs : List Char} (h : scalarText v = .ok cs)
    (hfinite : IsFinite v) : ∃ c tail, cs = c :: tail ∧ c ≠ ' ' ∧ c ≠ '\t' := by
  have hnumber (hcs : IsNumber cs) : ∃ c tail, cs = c :: tail ∧ c ≠ ' ' ∧ c ≠ '\t' := by
    obtain ⟨c, tail, rfl, hc⟩ := hcs.head
    refine ⟨c, tail, rfl, ?_, ?_⟩
    all_goals
      rintro rfl
      exact absurd hc (by decide)
  unfold scalarText at h
  split at h
  · split at h
    · cases h
      exact hnumber (isNumber_integerText _)
    · cases h
  · next x =>
    cases h
    obtain ⟨a, ha⟩ := hfinite x rfl
    exact hnumber (isNumber_floatText ha)
  · split at h
    · cases h
    · cases h
      obtain ⟨tail, htext | htext⟩ := head_textLiteral (String.toList _)
      · exact ⟨_, tail, htext, by decide, by decide⟩
      · exact ⟨_, tail, htext, by decide, by decide⟩
  · cases h

/-! ### Keys -/

/-- A key without quotes. -/
structure IsBareKey (key : String) : Prop where
  ne_nil : key.toList ≠ []
  bare : ∀ c ∈ key.toList, isBareChar c = true

theorem skipBlanks_cons {c : Char} (hspace : c ≠ ' ') (htab : c ≠ '\t') (cs : List Char) :
    skipBlanks (c :: cs) = c :: cs := by
  unfold skipBlanks
  rw [List.dropWhile_cons_of_neg]
  simp [hspace, htab]

instance (key : String) : Decidable (IsBareKey key) :=
  decidable_of_iff (key.toList ≠ [] ∧ key.toList.all isBareChar = true)
    ⟨fun h => ⟨h.1, List.all_eq_true.mp h.2⟩, fun h => ⟨h.ne_nil, List.all_eq_true.mpr h.bare⟩⟩

namespace IsBareKey
variable {key : String} (h : IsBareKey key)
include h

theorem head : ∃ c tail, key.toList = c :: tail ∧ isBareChar c = true := by
  obtain ⟨c, tail, heq⟩ := List.exists_cons_of_ne_nil h.ne_nil
  exact ⟨c, tail, heq, h.bare c (heq ▸ List.mem_cons_self)⟩

theorem skipBlanks_eq (cs : List Char) : skipBlanks (key.toList ++ cs) = key.toList ++ cs := by
  obtain ⟨c, tail, heq, hc⟩ := h.head
  rw [heq]
  apply skipBlanks_cons
  all_goals
    rintro rfl
    exact absurd hc (by decide)

theorem simpleKey?_eq {cs : List Char} (hstop : ∀ c ∈ cs.head?, isBareChar c = false) :
    simpleKey? (key.toList ++ cs) = some (key, cs) := by
  have hbare := (Decimal.takeWhile_run h.bare hstop).1
  obtain ⟨c, tail, heq, hc⟩ := h.head
  unfold simpleKey?
  split
  · next hquote =>
    rw [heq] at hquote
    obtain rfl := (List.cons.inj hquote).1
    exact absurd hc (by decide)
  · next hquote =>
    rw [heq] at hquote
    obtain rfl := (List.cons.inj hquote).1
    exact absurd hc (by decide)
  · dsimp only
    rw [hbare, List.drop_left, String.ofList_toList]
    have hne : key.toList.isEmpty = false := by rw [heq]; rfl
    rw [hne]
    rfl

/-- A bare key up to a blank or a bracket is a path of one key. -/
theorem path?_eq {cs : List Char} (hstop : ∀ c ∈ cs.head?, isBareChar c = false)
    (hdot : ∀ rest, skipBlanks cs ≠ '.' :: rest) :
    path? (key.toList ++ cs) = some ([], key, skipBlanks cs) := by
  have hkeys : keys? ((key.toList ++ cs).length + 1) (key.toList ++ cs) =
      some ([key], skipBlanks cs) := by
    rw [keys?, h.skipBlanks_eq, h.simpleKey?_eq hstop, Option.bind_some]
    dsimp only
    split
    · exact absurd ‹_› (hdot _)
    · rfl
  rw [path?, hkeys]
  rfl

end IsBareKey

/-! ### Lines -/

/-- From one state of a document to another over the lines between, whatever fuel is left. -/
def Reads (p : Progress) (cs : List Char) (q : Progress) : Prop :=
  ∀ fuel, cs.length < fuel → document? fuel p cs = some q

namespace Reads

theorem nil (p : Progress) : Reads p [] p := by
  intro fuel hfuel
  obtain ⟨fuel, rfl⟩ := Nat.exists_eq_add_one_of_ne_zero (Nat.ne_of_gt hfuel)
  rfl

variable {p p' q : Progress} {rest : List Char}

theorem blankLine (h : Reads p rest q) : Reads p ('\n' :: rest) q := by
  intro fuel hfuel
  obtain ⟨fuel, rfl⟩ := Nat.exists_eq_add_one_of_ne_zero (Nat.ne_of_gt (Nat.zero_lt_of_lt hfuel))
  exact h fuel (Nat.lt_of_succ_lt_succ hfuel)

theorem header {name : String} (hname : IsBareKey name) (hp : p.header false [] name = some p')
    (h : Reads p' rest q) : Reads p ('[' :: name.toList ++ [']', '\n'] ++ rest) q := by
  intro fuel hfuel
  obtain ⟨fuel, rfl⟩ := Nat.exists_eq_add_one_of_ne_zero (Nat.ne_of_gt (Nat.zero_lt_of_lt hfuel))
  have hpath : path? (name.toList ++ ']' :: '\n' :: rest) =
      some ([], name, ']' :: '\n' :: rest) :=
    hname.path?_eq (fun c hc => by obtain rfl := Option.some.inj hc; rfl)
      fun _ heq => absurd (List.cons.inj heq).1 (by decide)
  have hhead : header? p (name.toList ++ ']' :: '\n' :: rest) = some (p', rest) := by
    obtain ⟨c, tail, heq, hc⟩ := hname.head
    have hopen : ((name.toList ++ ']' :: '\n' :: rest).head? == some '[') = false := by
      apply beq_false_of_ne
      intro hbracket
      rw [heq] at hbracket
      obtain rfl := Option.some.inj hbracket
      exact absurd hc (by decide)
    unfold header?
    dsimp only
    rw [hopen, if_neg Bool.false_ne_true, hpath]
    simp only [Option.bind_eq_bind, Option.bind_some, hp]
    rfl
  have hline : document? (fuel + 1) p ('[' :: (name.toList ++ ']' :: '\n' :: rest)) =
      document? fuel p' rest := by
    show (header? p (name.toList ++ ']' :: '\n' :: rest)).bind _ = _
    rw [hhead]
    rfl
  simp only [List.cons_append, List.append_assoc, List.nil_append] at hfuel ⊢
  rw [hline]
  apply h
  simp only [List.length_cons, List.length_append] at hfuel
  omega

theorem entry {key : String} {v : Value} {line : List Char} (hkey : IsBareKey key)
    (hline : entryLine (key, v) = .ok line) (hfinite : IsFinite v)
    (hp : p.addValue [] key v = some p') (h : Reads p' rest q) : Reads p (line ++ rest) q := by
  obtain ⟨cs, hcs, rfl⟩ : ∃ cs, scalarText v = .ok cs ∧
      line = key.toList ++ [' ', '=', ' '] ++ cs ++ ['\n'] := by
    unfold entryLine at hline
    dsimp only at hline
    cases hcs : scalarText v with
    | error e => rw [hcs] at hline; cases hline
    | ok cs => rw [hcs] at hline; cases hline; exact ⟨cs, rfl, rfl⟩
  intro fuel hfuel
  obtain ⟨fuel, rfl⟩ := Nat.exists_eq_add_one_of_ne_zero (Nat.ne_of_gt (Nat.zero_lt_of_lt hfuel))
  have hassoc : key.toList ++ [' ', '=', ' '] ++ cs ++ ['\n'] ++ rest =
      key.toList ++ ' ' :: '=' :: ' ' :: (cs ++ '\n' :: rest) := by simp
  rw [hassoc] at hfuel ⊢
  have hpath : path? (key.toList ++ ' ' :: '=' :: ' ' :: (cs ++ '\n' :: rest)) =
      some ([], key, '=' :: ' ' :: (cs ++ '\n' :: rest)) :=
    hkey.path?_eq (fun c hc => by obtain rfl := Option.some.inj hc; rfl)
      fun _ heq => absurd (List.cons.inj heq).1 (by decide)
  have hblanks : skipBlanks (' ' :: (cs ++ '\n' :: rest)) = cs ++ '\n' :: rest := by
    obtain ⟨c, tail, rfl, hspace, htab⟩ := head_scalarText hcs hfinite
    exact skipBlanks_cons hspace htab _
  have hpair : keyLine? p (key.toList ++ ' ' :: '=' :: ' ' :: (cs ++ '\n' :: rest)) =
      some (p', rest) := by
    have hend : endOfLine? ('\n' :: rest) = some rest := rfl
    unfold keyLine? pair?
    simp only [hpath, Option.bind_eq_bind, Option.bind_some, hblanks,
      value?_scalarText hcs hfinite, Option.pure_def, hend, hp]
  have hstart : document? (fuel + 1) p (key.toList ++ ' ' :: '=' :: ' ' :: (cs ++ '\n' :: rest)) =
      document? fuel p' rest := by
    obtain ⟨c, tail, heq, hc⟩ := hkey.head
    have hne {d : Char} (hd : isBareChar d = false) : c ≠ d := by
      rintro rfl
      rw [hc] at hd
      cases hd
    rw [document?, hkey.skipBlanks_eq]
    rw [heq, List.cons_append] at hpair ⊢
    split
    · exact absurd ‹_› (List.cons_ne_nil _ _)
    · exact absurd (List.cons.inj ‹_›).1 (hne rfl)
    · exact absurd (List.cons.inj ‹_›).1 (hne rfl)
    · exact absurd (List.cons.inj ‹_›).1 (hne rfl)
    · exact absurd (List.cons.inj ‹_›).1 (hne rfl)
    · rw [hpair]
      rfl
  rw [hstart]
  apply h
  simp only [List.length_cons, List.length_append] at hfuel
  omega

end Reads

/-! ### Tables -/

abbrev Section := String × List (String × Value)

def sectionTable (entries : List (String × Value)) : Table :=
  .mk false false (entries.map fun e => (e.1, .value e.2))

/-- The table of a document after its first sections. -/
def rootTable (sections : List Section) : Table :=
  .mk false false (sections.map fun s => (s.1, .table (sectionTable s.2)))

theorem lookup_named {α β : Type} {f : α → β} {entries : List (String × α)} {key : String}
    (h : key ∉ entries.map Prod.fst) :
    (entries.map fun e => (e.1, f e.2)).lookup key = none := by
  apply lookup_eq_none
  rwa [List.map_map]

theorem find?_rootTable {sections : List Section} {name : String}
    (h : name ∉ sections.map Prod.fst) : (rootTable sections).find? name = none :=
  lookup_named (f := fun entries => Node.table (sectionTable entries)) h

theorem rootTable_append (sections : List Section) (name : String)
    (entries : List (String × Value)) :
    rootTable (sections ++ [(name, entries)]) =
      (rootTable sections).add name (.table (sectionTable entries)) := by
  rw [rootTable, List.map_append]
  rfl

theorem find?_add {t : Table} {key : String} (h : t.find? key = none) (n : Node) :
    (t.add key n).find? key = some n := by
  have hlookup : t.entries.lookup key = none := h
  show (t.entries ++ [(key, n)]).lookup key = some n
  rw [List.lookup_append, hlookup, Option.none_or, List.lookup_cons_self]

theorem replace_add {t : Table} {key : String} (h : t.find? key = none) (n n' : Node) :
    (t.add key n).replace key n' = t.add key n' := by
  have hother : ∀ e ∈ t.entries, (if e.1 = key then (key, n') else e) = e := by
    intro e he
    have hne := List.lookup_eq_none_iff.mp h e he
    rw [bne_iff_ne] at hne
    exact if_neg fun heq => hne heq.symm
  have hlast : (if (key, n).1 = key then (key, n') else (key, n)) = (key, n') := if_pos rfl
  show Table.mk _ _ ((t.entries ++ [(key, n)]).map fun e => if e.1 = key then (key, n') else e) =
    Table.mk _ _ (t.entries ++ [(key, n')])
  rw [List.map_append, List.map_congr_left hother, List.map_id', List.map_singleton, hlast]
  rfl

theorem header_rootTable {sections : List Section} {name : String} (path : List String)
    (h : name ∉ sections.map Prod.fst) :
    Progress.header ⟨rootTable sections, path⟩ false [] name =
      some ⟨rootTable (sections ++ [(name, [])]), [name]⟩ := by
  have hopen : Table.open? name (rootTable sections) =
      some (rootTable (sections ++ [(name, [])])) := by
    rw [Table.open?, find?_rootTable h, rootTable_append]
    rfl
  show ((Table.open? name (rootTable sections)).map _) = _
  rw [hopen]
  rfl

theorem addValue_sectionTable {entries : List (String × Value)} {key : String} (v : Value)
    (h : key ∉ entries.map Prod.fst) :
    Table.addValue [] key v (sectionTable entries) =
      some (sectionTable (entries ++ [(key, v)])) := by
  have hfind : (sectionTable entries).find? key = none := lookup_named h
  show (if false = true then none else if ((sectionTable entries).find? key).isSome then none
    else some ((sectionTable entries).add key (.value v))) = _
  rw [hfind, if_neg Bool.false_ne_true, sectionTable, sectionTable, List.map_append]
  rfl

theorem addValue_rootTable {sections : List Section} {name key : String}
    {entries : List (String × Value)} (v : Value) (hname : name ∉ sections.map Prod.fst)
    (hkey : key ∉ entries.map Prod.fst) :
    Progress.addValue ⟨rootTable (sections ++ [(name, entries)]), [name]⟩ [] key v =
      some ⟨rootTable (sections ++ [(name, entries ++ [(key, v)])]), [name]⟩ := by
  have hfind := find?_rootTable hname
  have halter : (rootTable (sections ++ [(name, entries)])).alter false (Table.addValue [] key v)
      [name] = some (rootTable (sections ++ [(name, entries ++ [(key, v)])])) := by
    rw [rootTable_append, rootTable_append, Table.alter, find?_add hfind]
    dsimp only
    rw [Bool.false_and, if_neg Bool.false_ne_true, Table.alter, addValue_sectionTable v hkey,
      Option.map_some, replace_add hfind]
  unfold Progress.addValue
  rw [halter]
  rfl

/-! ### Documents -/

/-- Sections that are read back: bare keys that come once, and finite doubles. -/
structure IsPlain (sections : List Section) : Prop where
  names : (sections.map Prod.fst).Nodup
  bareNames : ∀ name ∈ sections.map Prod.fst, IsBareKey name
  keys : ∀ s ∈ sections, (s.2.map Prod.fst).Nodup
  bareKeys : ∀ s ∈ sections, ∀ key ∈ s.2.map Prod.fst, IsBareKey key
  finite : ∀ s ∈ sections, ∀ e ∈ s.2, IsFinite e.2

/-- The entries of the last section are read after those that it has already. -/
theorem reads_entries {front : List Section} {name : String} (hname : name ∉ front.map Prod.fst)
    (done : List (String × Value)) {entries : List (String × Value)}
    (hkeys : ((done ++ entries).map Prod.fst).Nodup)
    (hbare : ∀ key ∈ entries.map Prod.fst, IsBareKey key) (hfinite : ∀ e ∈ entries, IsFinite e.2)
    {lines : List (List Char)} (hlines : entries.mapM entryLine = .ok lines)
    {rest : List Char} {q : Progress}
    (h : Reads ⟨rootTable (front ++ [(name, done ++ entries)]), [name]⟩ rest q) :
    Reads ⟨rootTable (front ++ [(name, done)]), [name]⟩ (lines.flatten ++ rest) q := by
  induction entries generalizing done lines with
  | nil =>
    cases hlines
    rwa [List.append_nil] at h
  | cons e entries ih =>
    obtain ⟨key, v⟩ := e
    rw [List.mapM_cons] at hlines
    cases hline : entryLine (key, v) with
    | error err => rw [hline] at hlines; cases hlines
    | ok line =>
      cases hrest : entries.mapM entryLine with
      | error err => rw [hline, hrest] at hlines; cases hlines
      | ok others =>
        rw [hline, hrest] at hlines
        cases hlines
        have hassoc : done ++ (key, v) :: entries = done ++ [(key, v)] ++ entries := by simp
        rw [hassoc] at hkeys h
        have hfresh : key ∉ done.map Prod.fst := by
          intro hmem
          rw [List.append_assoc, List.map_append] at hkeys
          exact (List.nodup_append.mp hkeys).2.2 key hmem key (by simp) rfl
        have hread := ih (done ++ [(key, v)]) hkeys
          (fun key hkey => hbare key (List.mem_cons_of_mem _ hkey))
          (fun e he => hfinite e (List.mem_cons_of_mem _ he)) hrest h
        rw [List.flatten_cons, List.append_assoc]
        exact hread.entry (hbare _ List.mem_cons_self) hline (hfinite _ List.mem_cons_self)
          (addValue_rootTable v hname hfresh)

theorem reads_section (front : List Section) {s : Section} {more : List Section}
    (h : IsPlain (front ++ s :: more)) {text : List Char} (htext : sectionText s = .ok text)
    (path : List String) {rest : List Char} {q : Progress}
    (hrest : Reads ⟨rootTable (front ++ [s]), [s.1]⟩ rest q) :
    Reads ⟨rootTable front, path⟩ (text ++ rest) q := by
  obtain ⟨name, entries⟩ := s
  have hmem : (name, entries) ∈ front ++ (name, entries) :: more := by simp
  have hfresh : name ∉ front.map Prod.fst := by
    intro hmem
    have hnames := h.names
    rw [List.map_append] at hnames
    exact (List.nodup_append.mp hnames).2.2 name hmem name (by simp) rfl
  unfold sectionText at htext
  dsimp only at htext
  cases hlines : entries.mapM entryLine with
  | error err => rw [hlines] at htext; cases htext
  | ok lines =>
    rw [hlines] at htext
    cases htext
    have hentries := reads_entries hfresh [] (h.keys _ hmem) (h.bareKeys _ hmem)
      (h.finite _ hmem) hlines hrest
    have hread := hentries.header (h.bareNames _ (List.mem_map_of_mem hmem))
      (header_rootTable path hfresh)
    simpa using hread

theorem reads_sections (front : List Section) {more : List Section} (h : IsPlain (front ++ more))
    {parts : List (List Char)} (hparts : more.mapM sectionText = .ok parts) (path : List String) :
    ∃ path', Reads ⟨rootTable front, path⟩ (parts.flatMap fun part => '\n' :: part)
      ⟨rootTable (front ++ more), path'⟩ := by
  induction more generalizing front parts path with
  | nil =>
    cases hparts
    rw [List.append_nil]
    exact ⟨path, .nil _⟩
  | cons s more ih =>
    rw [List.mapM_cons] at hparts
    cases htext : sectionText s with
    | error err => rw [htext] at hparts; cases hparts
    | ok text =>
      cases hmore : more.mapM sectionText with
      | error err => rw [htext, hmore] at hparts; cases hparts
      | ok texts =>
        rw [htext, hmore] at hparts
        cases hparts
        have hassoc : front ++ s :: more = front ++ [s] ++ more := by simp
        obtain ⟨path', hread⟩ := ih (front ++ [s]) (hassoc ▸ h) hmore [s.1]
        rw [hassoc, List.flatMap_cons]
        exact ⟨path', (reads_section front h htext path hread).blankLine⟩

theorem flatten_intersperse (part : List Char) (parts : List (List Char)) :
    ((part :: parts).intersperse ['\n']).flatten =
      part ++ parts.flatMap fun part => '\n' :: part := by
  induction parts generalizing part with
  | nil => simp
  | cons next parts ih => simp [List.intersperse_cons_cons, ih]

theorem entriesToValues_map {α : Type} (f : α → Node) (entries : List (String × α)) :
    entriesToValues false (entries.map fun e => (e.1, f e.2)) =
      entries.map fun e => (some e.1, (f e.2).toValue false) := by
  induction entries with
  | nil => rfl
  | cons e entries ih => rw [List.map_cons, entriesToValues, ih, List.map_cons]

/-- The tables of a document of sections. -/
def sectionsValue (sections : List Section) : Value :=
  .table false (sections.map fun s => (some s.1, .table false (s.2.map fun e => (some e.1, e.2))))

theorem toValue_rootTable (sections : List Section) :
    (rootTable sections).toValue false = sectionsValue sections := by
  have hsection (entries : List (String × Value)) :
      (Node.table (sectionTable entries)).toValue false =
        .table false (entries.map fun e => (some e.1, e.2)) := by
    rw [Node.toValue, sectionTable, Table.toValue, entriesToValues_map (f := Node.value)]
    rfl
  rw [rootTable, Table.toValue, entriesToValues_map (f := fun es => Node.table (sectionTable es))]
  simp only [hsection]
  rfl

theorem head?_sectionText {s : Section} {text : List Char} (h : sectionText s = .ok text) :
    text.head? = some '[' := by
  unfold sectionText at h
  dsimp only at h
  cases hlines : s.2.mapM entryLine with
  | error err => rw [hlines] at h; cases h
  | ok lines => rw [hlines] at h; cases h; rfl

/-- A document of sections that could be written is read as those sections. -/
theorem read?_write {sections : List Section} (h : IsPlain sections) {cs : List Char}
    (hwrite : write sections = .ok cs) : read? cs = some (sectionsValue sections) := by
  obtain ⟨path, hread, hmark⟩ : ∃ path, Reads {} cs ⟨rootTable sections, path⟩ ∧
      cs.head? ≠ some '\uFEFF' := by
    cases sections with
    | nil =>
      cases hwrite
      exact ⟨[], .nil _, by decide⟩
    | cons s more =>
      unfold write at hwrite
      rw [List.mapM_cons] at hwrite
      cases htext : sectionText s with
      | error err => rw [htext] at hwrite; cases hwrite
      | ok text =>
        cases hmore : more.mapM sectionText with
        | error err => rw [htext, hmore] at hwrite; cases hwrite
        | ok texts =>
          rw [htext, hmore] at hwrite
          cases hwrite
          obtain ⟨path, hrest⟩ := reads_sections [s] h hmore [s.1]
          dsimp only
          rw [flatten_intersperse]
          refine ⟨path, reads_section [] h htext [] hrest, ?_⟩
          rw [List.head?_append, head?_sectionText htext, Option.some_or]
          decide
  unfold read?
  dsimp only
  rw [if_neg hmark, hread _ (Nat.lt_succ_self _), Option.map_some, toValue_rootTable]

end BasRelief.Document.Toml
