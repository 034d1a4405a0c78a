import BasRelief.Proofs.Analysis.RecordedSeries
import BasRelief.Proofs.Analysis.ReportDocument
import Mathlib.Data.Finset.Dedup
import Mathlib.Data.List.Nodup

/-!
# The most frequent words

Counted words are ranked by their counts and, where these are equal, by the words themselves. The
first words of a report are the front of that ranking: nothing that is left out ranks before them.
-/

namespace BasRelief
open Document

namespace WordCounts

/-! ### The ranking -/

/-- Counted more often, or as often and earlier in the order of the words. -/
def Precedes (a b : String × Nat) : Prop := b.2 < a.2 ∨ (a.2 = b.2 ∧ a.1 < b.1)

instance (a b : String × Nat) : Decidable (Precedes a b) :=
  inferInstanceAs (Decidable (_ ∨ _))

theorem ranksBefore_iff (a b : String × Nat) :
    ranksBefore a b = true ↔ b.2 < a.2 ∨ (a.2 = b.2 ∧ a.1 ≤ b.1) := by
  unfold ranksBefore
  by_cases h : a.2 = b.2
  · rw [if_pos h, decide_eq_true_iff]
    exact ⟨fun hle => .inr ⟨h, hle⟩, fun hor => (hor.resolve_left (by omega)).2⟩
  · rw [if_neg h, decide_eq_true_iff]
    exact ⟨.inl, fun hor => hor.resolve_right fun heq => h heq.1⟩

theorem ranksBefore_trans {a b c : String × Nat} (hab : ranksBefore a b = true)
    (hbc : ranksBefore b c = true) : ranksBefore a c = true := by
  rw [ranksBefore_iff] at hab hbc ⊢
  obtain hab | ⟨hcount, hword⟩ := hab
  · obtain hbc | ⟨hcount', _⟩ := hbc <;> exact .inl (by omega)
  · obtain hbc | ⟨hcount', hword'⟩ := hbc
    · exact .inl (by omega)
    · exact .inr ⟨hcount.trans hcount', String.le_trans hword hword'⟩

theorem ranksBefore_total (a b : String × Nat) :
    (ranksBefore a b || ranksBefore b a) = true := by
  rw [Bool.or_eq_true, ranksBefore_iff, ranksBefore_iff]
  obtain hlt | heq | hgt := Nat.lt_trichotomy a.2 b.2
  · exact .inr (.inl hlt)
  · obtain hle | hle := String.le_total a.1 b.1
    · exact .inl (.inr ⟨heq, hle⟩)
    · exact .inr (.inr ⟨heq.symm, hle⟩)
  · exact .inl (.inl hgt)

theorem precedes_of_ranksBefore {a b : String × Nat} (h : ranksBefore a b = true)
    (hne : a.1 ≠ b.1) : Precedes a b := by
  obtain hcount | ⟨hcount, hword⟩ := (ranksBefore_iff a b).mp h
  · exact .inl hcount
  · exact .inr ⟨hcount, Std.lt_of_le_of_ne hword hne⟩

theorem Precedes.asymm {a b : String × Nat} (h : Precedes a b) : ¬Precedes b a := by
  rintro (hlt | ⟨heq, hword⟩)
  · obtain hgt | ⟨heq, _⟩ := h <;> omega
  · obtain hgt | ⟨_, hword'⟩ := h
    · omega
    · exact String.lt_asymm hword hword'

/-! ### Counts with one entry for each word -/

/-- No word has two entries. -/
def OneEach (c : WordCounts) : Prop := (c.map Prod.fst).Nodup

theorem Ordered.oneEach {c : WordCounts} (h : c.Ordered) : c.OneEach :=
  h.imp fun hlt => String.ne_of_lt hlt

theorem OneEach.lookup {c : WordCounts} (h : c.OneEach) {e : String × Nat} (he : e ∈ c) :
    c.lookup e.1 = some e.2 := by
  obtain ⟨before, after, rfl⟩ := List.append_of_mem he
  rw [List.lookup_eq_some_iff]
  refine ⟨before, after, rfl, fun p hp => bne_iff_ne.mpr fun heq => ?_⟩
  rw [OneEach, List.map_append, List.map_cons] at h
  exact (List.nodup_append.mp h).2.2 p.1 (List.mem_map_of_mem hp) e.1 List.mem_cons_self heq.symm

/-- The entries in the order of the ranking. -/
def ranked (c : WordCounts) : WordCounts := c.mergeSort ranksBefore

theorem ranked_perm (c : WordCounts) : c.ranked.Perm c := List.mergeSort_perm c ranksBefore

theorem top_eq_take (n : Nat) (c : WordCounts) : c.top n = c.ranked.take n := rfl

theorem OneEach.pairwise_ranked {c : WordCounts} (h : c.OneEach) : c.ranked.Pairwise Precedes := by
  have hranks : c.ranked.Pairwise fun a b => ranksBefore a b = true :=
    @List.pairwise_mergeSort _ ranksBefore (fun _ _ _ => ranksBefore_trans) ranksBefore_total c
  have hwords : c.ranked.Pairwise fun a b => a.1 ≠ b.1 :=
    List.pairwise_map.mp ((c.ranked_perm.map Prod.fst).nodup_iff.mpr h)
  exact hranks.imp₂ (fun _ _ => precedes_of_ranksBefore) hwords

/-- There is one way to rank the entries. -/
theorem OneEach.ranked_eq {c d : WordCounts} (h : c.OneEach) (hperm : d.Perm c)
    (hd : d.Pairwise Precedes) : c.ranked = d :=
  (c.ranked_perm.trans hperm.symm).eq_of_pairwise
    (fun _ _ _ _ hab hba => absurd hba hab.asymm) h.pairwise_ranked hd

/-! ### The top of the ranking -/

/-- The first `n` entries of the ranking of some counts. -/
structure IsTop (n : Nat) (c top : WordCounts) : Prop where
  length : top.length = min n (c.map Prod.fst).toFinset.card
  stored : ∀ e ∈ top, e ∈ c ∧ c.lookup e.1 = some e.2
  distinct : (top.map Prod.fst).Nodup
  ordered : top.Pairwise Precedes
  rest : ∀ e ∈ c, e.1 ∉ top.map Prod.fst → ∀ f ∈ top, Precedes f e

theorem OneEach.isTop {c : WordCounts} (h : c.OneEach) (n : Nat) : IsTop n c (c.top n) := by
  have hranked : (c.ranked.take n ++ c.ranked.drop n).Pairwise Precedes := by
    rw [List.take_append_drop]
    exact h.pairwise_ranked
  obtain ⟨hfirst, _, hacross⟩ := List.pairwise_append.mp hranked
  have hmem : ∀ e ∈ c.ranked.take n, e ∈ c :=
    fun e he => c.ranked_perm.mem_iff.mp (List.mem_of_mem_take he)
  rw [top_eq_take]
  refine ⟨?length, ?stored, ?distinct, hfirst, ?rest⟩
  case length =>
    rw [List.toFinset_card_of_nodup h, List.length_map, List.length_take, c.ranked_perm.length_eq]
  case stored => exact fun e he => ⟨hmem e he, h.lookup (hmem e he)⟩
  case distinct =>
    have hwords : (c.ranked.map Prod.fst).Nodup := (c.ranked_perm.map Prod.fst).nodup_iff.mpr h
    exact hwords.sublist ((List.take_sublist n c.ranked).map Prod.fst)
  case rest =>
    intro e he hout f hf
    have hsplit : e ∈ c.ranked.take n ++ c.ranked.drop n := by
      rw [List.take_append_drop]
      exact c.ranked_perm.mem_iff.mpr he
    obtain hin | hlater := List.mem_append.mp hsplit
    · exact absurd (List.mem_map_of_mem hin) hout
    · exact hacross f hf e hlater

theorem top_prefix (c : WordCounts) {m n : Nat} (h : m ≤ n) : c.top m <+: c.top n :=
  List.take_prefix_take_left h

/-! ### Counts of reports -/

/-- Storing a count and counting once more leave entries for the same words. -/
theorem words_put (v : String) (n : Nat) (c : WordCounts) :
    (c.put v n).map Prod.fst = (c.add v).map Prod.fst := by
  induction c with
  | nil => rfl
  | cons e c ih =>
    obtain ⟨u, m⟩ := e
    rw [put, add]
    split
    · rfl
    · split
      · rfl
      · rw [List.map_cons, List.map_cons, ih]

theorem ordered_put {c : WordCounts} (h : c.Ordered) (v : String) (n : Nat) :
    (c.put v n).Ordered := by
  rw [Ordered, words_put]
  exact ordered_add h v

theorem ordered_takeEntry {d : Dialect} {c c' : WordCounts} {e : Option String × Value}
    (h : c.Ordered) (hput : takeEntry d c e = .ok c') : c'.Ordered := by
  obtain ⟨key, v⟩ := e
  cases key with
  | none => cases hput
  | some word =>
    rw [takeEntry] at hput
    cases hn : Decoder.natural d v with
    | error e =>
      rw [hn] at hput
      cases hput
    | ok n =>
      rw [hn] at hput
      cases hput
      exact ordered_put h word n

theorem ordered_ofValue {d : Dialect} {v : Value} {c : WordCounts} (h : ofValue d v = .ok c) :
    c.Ordered := by
  have key (entries : List (Option String × Value)) : ∀ start : WordCounts, start.Ordered →
      entries.foldlM (takeEntry d) start = .ok c → c.Ordered := by
    induction entries with
    | nil =>
      intro start hstart hfold
      cases hfold
      exact hstart
    | cons e entries ih =>
      intro start hstart hfold
      rw [List.foldlM_cons] at hfold
      obtain ⟨next, hnext, hrest⟩ := bind_eq_ok_iff.mp hfold
      exact ih next (ordered_takeEntry hstart hnext) hrest
  cases v with
  | table closed entries =>
    rw [ofValue_table] at h
    exact key entries [] List.Pairwise.nil h
  | _ => cases h

end WordCounts

theorem Document.Record.exists_of_required {α : Type} {r : Record} {d : Dialect} {key : String}
    {decode : Decoder α} {a : α} (h : r.required d key decode = .ok a) :
    ∃ v, decode d v = .ok a := by
  unfold required at h
  split at h
  · exact ⟨_, h⟩
  · cases h

/-- Whatever was recorded, a word has one entry in the report. -/
theorem Tally.ordered_ofEvents {α : Type} [Scalar α] (limit : Nat) (es : List (Event α)) :
    (ofEvents limit es).gWords.Ordered := by
  induction es using List.reverseRecOn with
  | nil => exact List.Pairwise.nil
  | append_singleton es e ih =>
    rw [ofEvents, List.foldl_append]
    cases e with
    | warnings count => exact ih
    | segment m =>
      change (Tally.record limit (ofEvents limit es) m).gWords.Ordered
      unfold record
      cases m.gNumber with
      | none => exact ih
      | some n => exact WordCounts.ordered_add ih _

theorem MotionSummary.ordered_of_ofValue {d : Dialect} {v : Value} {s : MotionSummary Float}
    (h : ofValue d v = .ok s) : s.gWordCounts.Ordered := by
  -- the counts come after four other fields, and four more follow them
  obtain ⟨_, _, h⟩ := bind_eq_ok_iff.mp h
  iterate 4 obtain ⟨_, _, h⟩ := bind_eq_ok_iff.mp h
  obtain ⟨counts, hcounts, h⟩ := bind_eq_ok_iff.mp h
  iterate 4 obtain ⟨_, _, h⟩ := bind_eq_ok_iff.mp h
  cases h
  obtain ⟨_, hvalue⟩ := Record.exists_of_required hcounts
  exact WordCounts.ordered_ofValue hvalue

/-- Whatever was read, a word has one entry in the report. -/
theorem AnalysisReport.ordered_of_ofValue {d : Dialect} {v : Value} {r : AnalysisReport Float}
    (h : ofValue d v = .ok r) : r.summary.gWordCounts.Ordered := by
  obtain ⟨_, _, h⟩ := bind_eq_ok_iff.mp h
  obtain ⟨summary, hsummary, h⟩ := bind_eq_ok_iff.mp h
  iterate 4 obtain ⟨_, _, h⟩ := bind_eq_ok_iff.mp h
  cases h
  obtain ⟨_, hvalue⟩ := Record.exists_of_required hsummary
  exact MotionSummary.ordered_of_ofValue hvalue

/-- The first G words of a report are the top of the ranking of its counts, fewer of them are the
front of more, and every report that is recorded or read has one entry for each word. -/
theorem topGWords_ranked :
    (∀ {α : Type} [Scalar α] (r : AnalysisReport α), r.summary.gWordCounts.OneEach → ∀ n,
      WordCounts.IsTop n r.summary.gWordCounts (r.topGWords n) ∧
        ∀ m ≤ n, r.topGWords m <+: r.topGWords n) ∧
    (∀ {α : Type} [Scalar α] (limit linesRead : Nat) (es : List (Tally.Event α)),
      ((Tally.ofEvents limit es).report linesRead).summary.gWordCounts.OneEach) ∧
    ∀ (d : Dialect) (v : Value) (r : AnalysisReport Float), AnalysisReport.ofValue d v = .ok r →
      r.summary.gWordCounts.OneEach := by
  refine ⟨?ranked, ?recorded, ?read⟩
  case ranked =>
    intro α _ r h n
    exact ⟨h.isTop n, fun m hm => WordCounts.top_prefix _ hm⟩
  case recorded =>
    intro α _ limit linesRead es
    exact (Tally.ordered_ofEvents limit es).oneEach
  case read =>
    intro d v r h
    exact (AnalysisReport.ordered_of_ofValue h).oneEach

/-- Four of the words were counted once. -/
def tiedCounts : WordCounts :=
  [("G0", 3), ("G1", 10), ("G17", 1), ("G2", 1), ("G21", 1), ("G90", 1)]

def tiedReport : AnalysisReport Float where
  summary :=
    { linesRead := 20
      processedLines := 17
      rapidMoves := 3
      cutMoves := 10
      gWordCounts := tiedCounts
      cutDistance := Scalar.one
      cutTime := Scalar.one
      rapidDistance := Scalar.zero
      warnings := 0 }
  feeds := .none
  heights := .none
  bounds := ⟨Scalar.zero, Scalar.zero, Scalar.zero, Scalar.zero⟩
  chart := ⟨[], [], []⟩

theorem tiedReport_ranked :
    AnalysisReport.ofValue .json tiedReport.toValue = .ok tiedReport ∧
      WordCounts.IsTop 4 tiedReport.summary.gWordCounts (tiedReport.topGWords 4) ∧
      tiedReport.topGWords 2 <+: tiedReport.topGWords 4 ∧
      tiedReport.topGWords 4 = [("G1", 10), ("G0", 3), ("G17", 1), ("G2", 1)] := by
  have hread : AnalysisReport.ofValue .json tiedReport.toValue = .ok tiedReport := by decide +kernel
  have hwords := topGWords_ranked.2.2 .json tiedReport.toValue tiedReport hread
  obtain ⟨htop, hprefix⟩ := topGWords_ranked.1 tiedReport hwords 4
  have hranked : tiedCounts.ranked =
      [("G1", 10), ("G0", 3), ("G17", 1), ("G2", 1), ("G21", 1), ("G90", 1)] :=
    hwords.ranked_eq (by decide) (by decide +kernel)
  have hfirst : tiedCounts.top 4 = [("G1", 10), ("G0", 3), ("G17", 1), ("G2", 1)] :=
    congrArg (List.take 4) hranked
  exact ⟨hread, htop, hprefix 2 (by decide), hfirst⟩

end BasRelief
