import BasRelief.Text.Lines
import BasRelief.Text.Utf8

/-!
# Lines of characters and of octets

Lines that were written with a line feed after each are the lines that are read. Octets of a text
have the lines of the text, since no octet of a character above the first 128 is a line feed or a
carriage return. Nothing is lost between the lines but line ends, so octets are a text as soon as
each of their lines is one.
-/

namespace BasRelief.Text

/-! ### Pieces -/

section
variable {β : Type} [DecidableEq β]

/-- Symbols in front of the pieces that follow them, none of them a feed. -/
def prepend (front : List β) : List (List β × Bool) → List (List β × Bool)
  | [] => [(front, false)]
  | (piece, closed) :: rest => (front ++ piece, closed) :: rest

theorem addSymbol_of_ne {feed c : β} (h : c ≠ feed) (ps : List (List β × Bool)) :
    addSymbol feed c ps = prepend [c] ps := by
  cases ps with
  | nil => rw [addSymbol, if_neg h, prepend]
  | cons p ps => rw [addSymbol, if_neg h, prepend, List.singleton_append]

theorem addSymbol_feed (feed : β) (ps : List (List β × Bool)) :
    addSymbol feed feed ps = ([], true) :: ps := by
  cases ps with
  | nil => rw [addSymbol, if_pos rfl]
  | cons p ps => rw [addSymbol, if_pos rfl]

omit [DecidableEq β] in
theorem prepend_prepend (front middle : List β) (ps : List (List β × Bool)) :
    prepend front (prepend middle ps) = prepend (front ++ middle) ps := by
  cases ps with
  | nil => rfl
  | cons p ps => simp only [prepend, List.append_assoc]

theorem pieces_append {feed : β} {front : List β} (hne : front ≠ []) (h : feed ∉ front)
    (cs : List β) : pieces feed (front ++ cs) = prepend front (pieces feed cs) := by
  induction front with
  | nil => exact absurd rfl hne
  | cons c front ih =>
    have hc : c ≠ feed := fun heq => h (heq ▸ List.mem_cons_self)
    have hfront : feed ∉ front := fun hmem => h (List.mem_cons_of_mem _ hmem)
    rw [List.cons_append, pieces_cons, addSymbol_of_ne hc]
    by_cases hnil : front = []
    · rw [hnil, List.nil_append]
    · rw [ih hnil hfront, prepend_prepend, List.singleton_append]

/-- A piece with the line feed that closes it. -/
def closedPiece (feed : β) : List β × Bool → List β
  | (piece, closed) => if closed then piece ++ [feed] else piece

theorem flatMap_closedPiece_addSymbol (feed c : β) (ps : List (List β × Bool)) :
    (addSymbol feed c ps).flatMap (closedPiece feed) = c :: ps.flatMap (closedPiece feed) := by
  by_cases hc : c = feed
  · rw [hc, addSymbol_feed]
    rfl
  · rw [addSymbol_of_ne hc]
    match ps with
    | [] => rfl
    | (piece, true) :: ps => rfl
    | (piece, false) :: ps => rfl

/-- The pieces with their line feeds are the text that was cut. -/
theorem flatMap_closedPiece_pieces (feed : β) (cs : List β) :
    (pieces feed cs).flatMap (closedPiece feed) = cs := by
  induction cs with
  | nil => rfl
  | cons c cs ih => rw [pieces_cons, flatMap_closedPiece_addSymbol, ih]

theorem pieces_append_feed {feed : β} {front : List β} (h : feed ∉ front) (cs : List β) :
    pieces feed (front ++ feed :: cs) = (front, true) :: pieces feed cs := by
  have hfeed : pieces feed (feed :: cs) = ([], true) :: pieces feed cs := by
    rw [pieces_cons, addSymbol_feed]
  by_cases hnil : front = []
  · rw [hnil, List.nil_append, hfeed]
  · rw [pieces_append hnil h, hfeed, prepend, List.append_nil]

end

/-! ### Written lines -/

/-- A text that is one line, whatever follows it: no line feed and no carriage return. -/
def IsLine (cs : List Char) : Prop := ∀ c ∈ cs, c ≠ '\n' ∧ c ≠ '\r'

instance (cs : List Char) : Decidable (IsLine cs) :=
  decidable_of_iff (cs.all (fun c => c ≠ '\n' && c ≠ '\r') = true) (by simp [IsLine])

theorem IsLine.append {cs ds : List Char} (hc : IsLine cs) (hd : IsLine ds) : IsLine (cs ++ ds) := by
  intro c h
  obtain h | h := List.mem_append.mp h
  · exact hc c h
  · exact hd c h

theorem withoutReturn_of_isLine {cs : List Char} (h : IsLine cs) (closed : Bool) :
    withoutReturn '\r' (cs, closed) = cs := by
  have hlast : cs.getLast? ≠ some '\r' := fun hr => (h '\r' (List.mem_of_getLast? hr)).2 rfl
  simp only [withoutReturn, hlast, decide_false, Bool.and_false, Bool.false_eq_true, if_false]

theorem lines_flatMap {ls : List (List Char)} (h : ∀ l ∈ ls, IsLine l) :
    lines (ls.flatMap fun l => l ++ ['\n']) = ls := by
  induction ls with
  | nil => rfl
  | cons l ls ih =>
    have hl := h l List.mem_cons_self
    have hls := ih fun m hm => h m (List.mem_cons_of_mem _ hm)
    have hfeed : '\n' ∉ l := fun hmem => (hl '\n' hmem).1 rfl
    rw [lines] at hls ⊢
    rw [List.flatMap_cons, List.append_assoc, List.singleton_append, pieces_append_feed hfeed,
      List.map_cons, hls, withoutReturn_of_isLine hl]

/-! ### Octets -/

theorem octets_of_lt {c : Char} (h : c.toNat < 128) :
    String.utf8EncodeChar c = [UInt8.ofNat c.toNat] := by
  have hle : c.val.toNat ≤ 0x7f := Nat.le_of_lt_succ h
  unfold String.utf8EncodeChar
  exact if_pos hle

theorem le_octet {c : Char} (h : 128 ≤ c.toNat) {b : UInt8} (hb : b ∈ String.utf8EncodeChar c) :
    128 ≤ b.toNat := by
  have hgt : ¬c.val.toNat ≤ 0x7f := Nat.not_le_of_lt h
  unfold String.utf8EncodeChar at hb
  dsimp only at hb
  rw [if_neg hgt] at hb
  split at hb
  · simp only [List.mem_cons, List.not_mem_nil, or_false] at hb
    obtain rfl | rfl := hb <;> simp <;> omega
  · split at hb
    · simp only [List.mem_cons, List.not_mem_nil, or_false] at hb
      obtain rfl | rfl | rfl := hb <;> simp <;> omega
    · simp only [List.mem_cons, List.not_mem_nil, or_false] at hb
      obtain rfl | rfl | rfl | rfl := hb <;> simp <;> omega

theorem toNat_of_mem_octets {c : Char} {b : UInt8} (h : b ∈ String.utf8EncodeChar c)
    (hb : b.toNat < 128) : c.toNat = b.toNat := by
  by_cases hc : c.toNat < 128
  · rw [octets_of_lt hc, List.mem_singleton] at h
    rw [h, UInt8.toNat_ofNat']
    omega
  · have hle := le_octet (Nat.le_of_not_lt hc) h
    omega

theorem char_eq_of_toNat {c d : Char} (h : c.toNat = d.toNat) : c = d := by
  rw [← Char.ofNat_toNat c, h, Char.ofNat_toNat]

theorem feed_not_mem_octets {c : Char} (h : c ≠ '\n') : (10 : UInt8) ∉ String.utf8EncodeChar c :=
  fun hmem => h (char_eq_of_toNat (toNat_of_mem_octets hmem (by decide)))

theorem return_not_mem_octets {c : Char} (h : c ≠ '\r') :
    (13 : UInt8) ∉ String.utf8EncodeChar c :=
  fun hmem => h (char_eq_of_toNat (toNat_of_mem_octets hmem (by decide)))

/-! ### Lines of octets -/

theorem encode_cons (c : Char) (cs : List Char) :
    encode (c :: cs) = String.utf8EncodeChar c ++ encode cs := List.flatMap_cons

theorem pieces_encode (cs : List Char) :
    pieces 10 (encode cs) = (pieces '\n' cs).map fun p => (encode p.1, p.2) := by
  induction cs with
  | nil => rfl
  | cons c cs ih =>
    rw [encode_cons, pieces_cons]
    by_cases hc : c = '\n'
    · have hoctets : String.utf8EncodeChar '\n' = [10] := by decide
      rw [hc, hoctets, List.singleton_append, pieces_cons, addSymbol_feed, addSymbol_feed, ih]
      rfl
    · rw [pieces_append String.utf8EncodeChar_ne_nil (feed_not_mem_octets hc),
        addSymbol_of_ne hc, ih]
      cases pieces '\n' cs with
      | nil => simp [prepend, encode]
      | cons p ps => simp [prepend, encode_cons]

theorem withoutReturn_encode (piece : List Char) (closed : Bool) :
    withoutReturn 13 (encode piece, closed) = encode (withoutReturn '\r' (piece, closed)) := by
  obtain rfl | ⟨front, c, heq⟩ := piece.eq_nil_or_concat
  · cases closed <;> rfl
  · rw [heq, List.concat_eq_append]
    -- a return ends the octets just where it ends the text
    have hsplit : encode (front ++ [c]) = encode front ++ String.utf8EncodeChar c := by
      rw [encode_append, encode_cons]
      simp [encode]
    by_cases hc : c = '\r'
    · have hoctets : String.utf8EncodeChar '\r' = [13] := by decide
      rw [hsplit, hc, hoctets]
      cases closed with
      | false => simp [withoutReturn, hoctets, encode]
      | true => simp [withoutReturn]
    · have hne : String.utf8EncodeChar c ≠ [] := String.utf8EncodeChar_ne_nil
      have hlast : (encode (front ++ [c])).getLast? ≠ some 13 := by
        rw [hsplit, List.getLast?_append, List.getLast?_eq_some_getLast hne, Option.some_or]
        intro h
        exact return_not_mem_octets hc (Option.some.inj h ▸ List.getLast_mem hne)
      have hchar : (front ++ [c]).getLast? ≠ some '\r' := by
        rw [List.getLast?_concat]
        exact fun h => hc (Option.some.inj h)
      simp only [withoutReturn, hlast, hchar, decide_false, Bool.and_false, Bool.false_eq_true,
        if_false]

/-- The lines of the octets of a text are the octets of its lines. -/
theorem octetLines_encode (cs : List Char) : octetLines (encode cs) = (lines cs).map encode := by
  rw [octetLines, pieces_encode, lines, List.map_map, List.map_map]
  apply List.map_congr_left
  intro p _
  exact withoutReturn_encode p.1 p.2

/-- A return ends no line by itself, and the last line may go without a feed. -/
example : lines "G21\r\nG0\rX1\n\nM30\r".toList =
    ["G21".toList, "G0\rX1".toList, [], "M30\r".toList] := by decide

/-! ### Octets that are a text -/

def IsText (bs : List UInt8) : Prop := ∃ cs, bs = encode cs

theorem IsText.append {a b : List UInt8} (ha : IsText a) (hb : IsText b) : IsText (a ++ b) := by
  obtain ⟨cs, rfl⟩ := ha
  obtain ⟨ds, rfl⟩ := hb
  exact ⟨cs ++ ds, (encode_append cs ds).symm⟩

theorem isText_feed : IsText [10] := ⟨['\n'], by decide⟩

theorem isText_return : IsText [13] := ⟨['\r'], by decide⟩

theorem isText_iff_decode? {bs : List UInt8} : IsText bs ↔ ∃ cs, decode? bs = some cs := by
  constructor
  · rintro ⟨cs, rfl⟩
    exact ⟨cs, decode?_encode cs⟩
  · rintro ⟨cs, h⟩
    exact ⟨cs, encode_of_decode? h⟩

theorem not_isText_iff {bs : List UInt8} : ¬IsText bs ↔ decode? bs = none := by
  rw [isText_iff_decode?]
  cases decode? bs <;> simp

theorem isText_of_withoutReturn {piece : List UInt8} {closed : Bool}
    (h : IsText (withoutReturn 13 (piece, closed))) : IsText piece := by
  rw [withoutReturn] at h
  split at h
  case isTrue hreturn =>
    have hlast : piece.getLast? = some 13 := by
      simp only [Bool.and_eq_true, decide_eq_true_eq] at hreturn
      exact hreturn.2
    obtain ⟨front, rfl⟩ := List.getLast?_eq_some_iff.mp hlast
    rw [List.dropLast_concat] at h
    exact h.append isText_return
  case isFalse => exact h

/-- Octets whose lines are texts are a text. -/
theorem isText_of_octetLines {bs : List UInt8} (h : ∀ l ∈ octetLines bs, IsText l) : IsText bs := by
  rw [← flatMap_closedPiece_pieces 10 bs]
  have hpieces : ∀ p ∈ pieces 10 bs, IsText (closedPiece 10 p) := by
    rintro ⟨piece, closed⟩ hp
    have hpiece := isText_of_withoutReturn (h _ (List.mem_map_of_mem hp))
    cases closed with
    | true => exact hpiece.append isText_feed
    | false => exact hpiece
  generalize pieces 10 bs = ps at hpieces
  induction ps with
  | nil => exact ⟨[], rfl⟩
  | cons p ps ih =>
    obtain ⟨hp, hps⟩ := List.forall_mem_cons.mp hpieces
    exact hp.append (ih hps)

end BasRelief.Text
