import BasRelief.Proofs.Document.Json.Tokens

/-!
# JSON documents read back

A written value is read as the value with each of its numbers as it is read on its own. Texts,
truth values, arrays and tables come back as they were, whatever the layout.
-/

namespace BasRelief.Document.Json

/-! ### Tokens of a value -/

/-- These tokens are one value, wherever a value may stand. -/
def Yields (found : List Token) (v : Value) : Prop :=
  ∀ stack, found.foldlM step ⟨.value, stack⟩ = some (complete v stack) ∧
    found.foldlM step ⟨.valueOrClose, stack⟩ = some (complete v stack)

namespace Yields

theorem of_beginValue {t : Token} {v : Value}
    (h : ∀ stack, beginValue stack t = some (complete v stack)) : Yields [t] v := by
  intro stack
  have hne : t ≠ .closeArray := by
    rintro rfl
    cases h []
  have hclose : step ⟨.valueOrClose, stack⟩ t = beginValue stack t := by
    cases t <;> first | rfl | exact absurd rfl hne
  constructor
  · rw [List.foldlM_cons]
    show (beginValue stack t).bind some = _
    rw [h, Option.bind_some]
  · rw [List.foldlM_cons, hclose, h]
    rfl

theorem word {cs : List Char} {v : Value} (h : wordValue? cs = some v) : Yields [.word cs] v :=
  of_beginValue fun stack => by rw [beginValue, h, Option.map_some]

theorem text (s : String) : Yields [.text (some s)] (.text s) := of_beginValue fun _ => rfl

/-- After a first item, separators and further items go to the same array. -/
theorem moreItems {found : List (List Token)} {items : List Value}
    (h : List.Forall₂ Yields found items) (done : List Value) (stack : List Frame) :
    (found.flatMap fun item => .comma :: item).foldlM step ⟨.next, .array done :: stack⟩ =
      some ⟨.next, .array (items.reverse ++ done) :: stack⟩ := by
  induction h generalizing done with
  | nil => rfl
  | @cons toks v found items hitem _ ih =>
    have hread := (hitem (.array done :: stack)).1
    rw [List.flatMap_cons, List.cons_append, List.foldlM_cons]
    show List.foldlM step (⟨.value, .array done :: stack⟩ : ReadState) (toks ++ _) = _
    rw [List.foldlM_append, hread]
    show List.foldlM step (⟨.next, .array (v :: done) :: stack⟩ : ReadState) _ = _
    rw [ih, List.reverse_cons, List.append_assoc, List.singleton_append]

theorem array {found : List (List Token)} {items : List Value}
    (h : List.Forall₂ Yields found items) :
    Yields (.openArray :: separated found ++ [.closeArray]) (.array items) := by
  have hopened (stack : List Frame) :
      List.foldlM step ⟨.valueOrClose, .array [] :: stack⟩ (separated found ++ [.closeArray]) =
        some (complete (.array items) stack) := by
    cases h with
    | nil => rfl
    | @cons toks v found items hitem hrest =>
      rw [separated, List.append_assoc, List.foldlM_append, (hitem (.array [] :: stack)).2]
      show List.foldlM step (⟨.next, .array [v] :: stack⟩ : ReadState) _ = _
      rw [List.foldlM_append, moreItems hrest]
      show some (complete (.array (items.reverse ++ [v]).reverse) stack) = _
      rw [List.reverse_append, List.reverse_reverse]
      rfl
  exact fun stack => ⟨hopened stack, hopened stack⟩

/-- A key with its value. -/
structure Entry (found : List Token) (e : Option String × Value) : Prop where
  parts : ∃ rest, found = .text e.1 :: .colon :: rest ∧ Yields rest e.2

theorem Entry.foldlM {found : List Token} {e : Option String × Value} (h : Entry found e)
    (done : List (Option String × Value)) (mayClose : Bool) (stack : List Frame) :
    found.foldlM step ⟨.key done mayClose, stack⟩ =
      some ⟨.next, .table (e :: done) none :: stack⟩ := by
  obtain ⟨rest, rfl, hvalue⟩ := h.parts
  have hread := (hvalue (.table done e.1 :: stack)).1
  cases mayClose <;> exact hread

theorem moreEntries {found : List (List Token)} {entries : List (Option String × Value)}
    (h : List.Forall₂ Entry found entries) (done : List (Option String × Value))
    (stack : List Frame) :
    (found.flatMap fun item => .comma :: item).foldlM step ⟨.next, .table done none :: stack⟩ =
      some ⟨.next, .table (entries.reverse ++ done) none :: stack⟩ := by
  induction h generalizing done with
  | nil => rfl
  | @cons toks e found entries hentry _ ih =>
    rw [List.flatMap_cons, List.cons_append, List.foldlM_cons]
    show List.foldlM step (⟨.key done false, stack⟩ : ReadState) (toks ++ _) = _
    rw [List.foldlM_append, hentry.foldlM]
    show List.foldlM step (⟨.next, .table (e :: done) none :: stack⟩ : ReadState) _ = _
    rw [ih, List.reverse_cons, List.append_assoc, List.singleton_append]

theorem table {found : List (List Token)} {entries : List (Option String × Value)}
    (h : List.Forall₂ Entry found entries) :
    Yields (.openTable :: separated found ++ [.closeTable]) (.table true entries) := by
  have hopened (stack : List Frame) :
      List.foldlM step ⟨.key [] true, stack⟩ (separated found ++ [.closeTable]) =
        some (complete (.table true entries) stack) := by
    cases h with
    | nil => rfl
    | @cons toks e found entries hentry hrest =>
      rw [separated, List.append_assoc, List.foldlM_append, hentry.foldlM]
      show List.foldlM step (⟨.next, .table [e] none :: stack⟩ : ReadState) _ = _
      rw [List.foldlM_append, moreEntries hrest]
      show some (complete (.table true (entries.reverse ++ [e]).reverse) stack) = _
      rw [List.reverse_append, List.reverse_reverse]
      rfl
  exact fun stack => ⟨hopened stack, hopened stack⟩

end Yields

/-! ### Texts of a value -/

/-- A text that is read as one value. -/
def Reads (cs : List Char) (v : Value) : Prop := ∃ found, Scans cs found ∧ Yields found v

/-- A text that is read as a key with its value. -/
def ReadsEntry (cs : List Char) (e : Option String × Value) : Prop :=
  ∃ found, Scans cs found ∧ Yields.Entry found e

theorem read?_of_reads {cs : List Char} {v : Value} (h : Reads cs v) : read? cs = some v := by
  obtain ⟨found, hscans, hyields⟩ := h
  obtain ⟨s, hscan, hs⟩ := hscans []
  have htokens : tokens? cs = some found := by
    unfold tokens?
    show (List.foldlM scan (⟨.between, []⟩ : Scanner) cs).bind Scanner.finish? = _
    rw [hscan, Option.bind_some, Scanner.finish?_of_flushed hs, List.append_nil,
      List.reverse_reverse]
  have hvalue : valueOfTokens? found = some v := by
    have hsteps : List.foldlM step ({} : ReadState) found = some ⟨.nothing v, []⟩ := (hyields []).1
    rw [valueOfTokens?, hsteps]
  rw [read?, htokens, Option.bind_some, hvalue]

theorem forall₂_split {α β γ : Type} {first : α → β → Prop} {second : β → γ → Prop}
    {xs : List α} {zs : List γ} (h : List.Forall₂ (fun x z => ∃ y, first x y ∧ second y z) xs zs) :
    ∃ ys, List.Forall₂ first xs ys ∧ List.Forall₂ second ys zs := by
  induction h with
  | nil => exact ⟨[], .nil, .nil⟩
  | cons hfirst _ ih =>
    obtain ⟨y, hx, hz⟩ := hfirst
    obtain ⟨ys, hxs, hzs⟩ := ih
    exact ⟨y :: ys, .cons hx hxs, .cons hz hzs⟩

section
variable {layout : Layout} (hlayout : layout.IsBlank)
include hlayout

theorem reads_array {texts : List (List Char)} {items : List Value} (depth : Nat)
    (h : List.Forall₂ Reads texts items) :
    Reads (bracketed layout depth '[' ']' texts) (.array items) := by
  obtain ⟨found, hscans, hyields⟩ := forall₂_split h
  exact ⟨_, .bracketed hlayout rfl rfl hscans, .array hyields⟩

theorem reads_table {texts : List (List Char)} {entries : List (Option String × Value)}
    (depth : Nat) (h : List.Forall₂ ReadsEntry texts entries) :
    Reads (bracketed layout depth '\x7b' '\x7d' texts) (.table true entries) := by
  obtain ⟨found, hscans, hyields⟩ := forall₂_split h
  exact ⟨_, .bracketed hlayout rfl rfl hscans, .table hyields⟩

theorem readsEntry (key : String) {cs : List Char} {v : Value} (h : Reads cs v) :
    ReadsEntry (textLiteral key ++ layout.afterKey ++ cs) (some key, v) := by
  obtain ⟨found, hscans, hyields⟩ := h
  exact ⟨_, hscans.entry hlayout, ⟨found, rfl, hyields⟩⟩

end

/-! ### Numbers apart -/

mutual

/-- A value as it is read back: only numbers are not always as they were, and what no document can
say is null. -/
def reread : Value → Value
  | .null => .null
  | .bool b => .bool b
  | .integer n => (wordValue? (integerText n)).getD .unreadable
  | .float x => (wordValue? (floatText x)).getD .unreadable
  | .text s => .text s
  | .array items => .array (rereadItems items)
  | .table _ entries => .table true (rereadEntries entries)
  | .moment => .null
  | .unreadable => .null

def rereadItems : List Value → List Value
  | [] => []
  | v :: vs => reread v :: rereadItems vs

def rereadEntries : List (Option String × Value) → List (Option String × Value)
  | [] => []
  | (key, v) :: rest => (some (key.getD ""), reread v) :: rereadEntries rest

end

theorem reads_word {cs : List Char} (hword : IsWord cs) {v : Value}
    (h : wordValue? cs = some v) : Reads cs v := ⟨_, .word hword, .word h⟩

theorem reads_null : Reads ['n', 'u', 'l', 'l'] .null :=
  reads_word (by decide) rfl

theorem reads_integer (n : Int) : Reads (integerText n) (reread (.integer n)) := by
  have hproper := integerLexeme_isProper n
  have hvalue : wordValue? (integerText n) = some (integerLexeme n).value := by
    rw [← text_integerLexeme, Lexeme.wordValue?_text hproper]
  rw [reread, hvalue]
  exact reads_word (isWord_integerText n) hvalue

theorem floatText_of_not_finite {x : Float} (h : Double.value? x = none) :
    floatText x = ['n', 'u', 'l', 'l'] := by
  unfold Double.value? at h
  unfold floatText
  split
  · next hfinite =>
    rw [hfinite] at h
    cases h
  · rfl

theorem reads_float (x : Float) : Reads (floatText x) (reread (.float x)) := by
  cases hvalue : Double.value? x with
  | some a =>
    have hword := wordValue?_floatText hvalue
    rw [reread, hword]
    exact reads_word (isWord_floatText hvalue) hword
  | none =>
    rw [reread, floatText_of_not_finite hvalue]
    exact reads_null

theorem reads_bool (b : Bool) (layout : Layout) (depth : Nat) :
    Reads (write layout depth (.bool b)) (.bool b) := by
  have hfalse : IsWord ['f', 'a', 'l', 's', 'e'] := by decide
  have htrue : IsWord ['t', 'r', 'u', 'e'] := by decide
  cases b with
  | false => exact reads_word hfalse rfl
  | true => exact reads_word htrue rfl

/-! ### Documents -/

mutual

theorem reads_write {layout : Layout} (h : layout.IsBlank) (depth : Nat) :
    (v : Value) → Reads (write layout depth v) (reread v)
  | .null => reads_null
  | .bool b => reads_bool b layout depth
  | .integer n => reads_integer n
  | .float x => reads_float x
  | .text s => ⟨_, .text s, .text s⟩
  | .array items => reads_array h depth (reads_writeItems h (depth + 1) items)
  | .table _ entries => reads_table h depth (reads_writeEntries h (depth + 1) entries)
  | .moment => reads_null
  | .unreadable => reads_null

theorem reads_writeItems {layout : Layout} (h : layout.IsBlank) (depth : Nat) :
    (vs : List Value) → List.Forall₂ Reads (writeItems layout depth vs) (rereadItems vs)
  | [] => .nil
  | v :: vs => .cons (reads_write h depth v) (reads_writeItems h depth vs)

theorem reads_writeEntries {layout : Layout} (h : layout.IsBlank) (depth : Nat) :
    (entries : List (Option String × Value)) →
      List.Forall₂ ReadsEntry (writeEntries layout depth entries) (rereadEntries entries)
  | [] => .nil
  | (key, v) :: rest =>
    .cons (readsEntry h (key.getD "") (reads_write h depth v)) (reads_writeEntries h depth rest)

end

/-- Whatever is written is read, with its numbers as they are read on their own. -/
theorem read?_write {layout : Layout} (h : layout.IsBlank) (v : Value) :
    read? (write layout 0 v) = some (reread v) := read?_of_reads (reads_write h 0 v)

end BasRelief.Document.Json
