import BasRelief.Proofs.Toolpath.Runs
import BasRelief.Toolpath.Generator
import Mathlib.Data.List.ProdSigma

/-!
# A pass as its runs

A pass is made of the runs of the mask alone: for each of them, in the order in which the scan meets
them, a traverse to its first cell, a cut at each of its cells, and a lift. The flag of the scan is
gone from this description.
-/

namespace BasRelief

/-! ### Blocks of a list -/

/-- The blocks of a list: its longest stretches on which the predicate holds, in order. -/
inductive Blocks (p : Nat → Bool) : List Nat → List (List Nat) → Prop where
  | nil : Blocks p [] []
  | gap {c : Nat} {cs : List Nat} {bs : List (List Nat)} (off : p c = false)
      (rest : Blocks p cs bs) : Blocks p (c :: cs) bs
  | block {b cs : List Nat} {bs : List (List Nat)} (ne_nil : b ≠ []) (on : ∀ c ∈ b, p c = true)
      (stops : ∀ c ∈ cs.head?, p c = false) (rest : Blocks p cs bs) :
      Blocks p (b ++ cs) (b :: bs)

namespace Blocks
variable {p : Nat → Bool}

/-- Two lists side by side keep their blocks unless the predicate holds on both sides of the
border. -/
theorem append {as bs : List Nat} {ra rb : List (List Nat)} (ha : Blocks p as ra)
    (hb : Blocks p bs rb)
    (border : ∀ x ∈ as.getLast?, ∀ y ∈ bs.head?, p x = true → p y = false) :
    Blocks p (as ++ bs) (ra ++ rb) := by
  induction ha with
  | nil => exact hb
  | @gap c cs _ off _ ih =>
    refine gap off (ih fun x hx => border x ?_)
    rw [List.getLast?_cons, Option.mem_def.mp hx]
    rfl
  | @block b cs _ ne_nil on stops _ ih =>
    rw [List.append_assoc]
    refine block ne_nil on ?_ (ih fun x hx => border x ?_)
    · cases cs with
      | cons c cs => exact stops
      | nil =>
        obtain ⟨x, hx⟩ := Option.ne_none_iff_exists'.mp (mt List.getLast?_eq_none_iff.mp ne_nil)
        intro y hy
        exact border x (by simpa using hx) y hy (on x (List.mem_of_getLast? hx))
    · rw [List.getLast?_append, Option.mem_def.mp hx]
      rfl

theorem reverse {cs : List Nat} {bs : List (List Nat)} (h : Blocks p cs bs) :
    Blocks p cs.reverse (bs.map List.reverse).reverse := by
  induction h with
  | nil => exact nil
  | @gap c cs bs off _ ih =>
    have hc : Blocks p [c] [] := gap off nil
    have hjoin := ih.append hc fun x _ y hy _ => by
      simp only [List.head?_cons, Option.mem_some] at hy
      exact hy ▸ off
    simpa using hjoin
  | @block b cs bs ne_nil on stops _ ih =>
    have hb : Blocks p (b.reverse ++ []) [b.reverse] :=
      block (mt List.reverse_eq_nil_iff.mp ne_nil) (fun c hc => on c (List.mem_reverse.mp hc))
        (fun c hc => by cases hc) nil
    rw [List.append_nil] at hb
    have hjoin := ih.append hb fun x hx y _ hon => by
      rw [List.getLast?_reverse] at hx
      rw [stops x hx] at hon
      cases hon
    simpa using hjoin

end Blocks

/-! ### Scans and blocks -/

def runStrokes (row : Nat) (cells : List Nat) : List Stroke :=
  (cells.take 1).map (.approach row) ++ cells.map (.carve row) ++ [.retract]

namespace ActiveMask
variable {m : ActiveMask} {row : Nat}

theorem scan_on {cells : List Nat} (h : ∀ col ∈ cells, m.active row col = true)
    (rest : List Nat) :
    m.scan row true (cells ++ rest) = cells.map (.carve row) ++ m.scan row true rest := by
  induction cells with
  | nil => rfl
  | cons col cells ih =>
    have hcol := h col List.mem_cons_self
    have hcells := ih fun c hc => h c (List.mem_cons_of_mem _ hc)
    simp only [List.cons_append, List.map_cons, scan, hcol, hcells]

theorem scan_leave {rest : List Nat} (h : ∀ col ∈ rest.head?, m.active row col = false) :
    m.scan row true rest = .retract :: m.scan row false rest := by
  cases rest with
  | nil => rfl
  | cons col rest =>
    have hcol : m.active row col = false := h col rfl
    simp only [scan, hcol]

theorem scan_of_blocks {cols : List Nat} {bs : List (List Nat)}
    (h : Blocks (m.active row) cols bs) :
    m.scan row false cols = bs.flatMap (runStrokes row) := by
  induction h with
  | nil => rfl
  | gap off _ ih => simp only [scan, off, ih]
  | @block b cs bs ne_nil on stops _ ih =>
    cases b with
    | nil => exact absurd rfl ne_nil
    | cons col cells =>
      have hcol := on col List.mem_cons_self
      have hcells := scan_on (fun c hc => on c (List.mem_cons_of_mem _ hc)) cs
      simp only [List.cons_append, scan, hcol, hcells, scan_leave stops, ih]
      simp [runStrokes]

/-! ### Runs in order -/

/-- The ends of the runs that start in one of the given columns. -/
def runEndsFrom (m : ActiveMask) (row : Nat) (firsts : List Nat) : List (Nat × Nat) :=
  (firsts ×ˢ List.range m.cols).filter fun ends => m.IsRun row ends.1 ends.2

theorem runEndsFrom_append (as bs : List Nat) :
    m.runEndsFrom row (as ++ bs) = m.runEndsFrom row as ++ m.runEndsFrom row bs := by
  simp [runEndsFrom, SProd.sprod, List.product]

theorem runEndsFrom_eq_nil {firsts : List Nat}
    (h : ∀ first ∈ firsts, ∀ last, ¬m.IsRun row first last) : m.runEndsFrom row firsts = [] := by
  rw [runEndsFrom, List.filter_eq_nil_iff]
  intro ends hends hrun
  have hfirst := (List.mem_product.mp hends).1
  exact h ends.1 hfirst ends.2 (of_decide_eq_true hrun)

theorem runEndsFrom_singleton {first last : Nat} (h : m.IsRun row first last) :
    m.runEndsFrom row [first] = [(first, last)] := by
  have hlast := (lt_cols_of_active (h.active last h.ordered le_rfl)).2
  have hnodup : (m.runEndsFrom row [first]).Nodup :=
    ((List.nodup_singleton first).product List.nodup_range).filter _
  apply List.perm_singleton.mp
  rw [List.perm_ext_iff_of_nodup hnodup (List.nodup_singleton _)]
  rintro ⟨a, b⟩
  simp only [runEndsFrom, List.mem_filter, List.mem_product, List.mem_singleton, List.mem_range,
    decide_eq_true_eq, Prod.mk.injEq]
  constructor
  · intro hrun
    obtain ⟨⟨rfl, -⟩, hab⟩ := hrun
    exact ⟨rfl, le_antisymm (h.last_le hab) (hab.last_le h)⟩
  · intro heq
    obtain ⟨rfl, rfl⟩ := heq
    exact ⟨⟨rfl, hlast⟩, h⟩

def runCells (ends : Nat × Nat) : List Nat := List.range' ends.1 (ends.2 + 1 - ends.1)

/-- From a column at which no run goes on, the blocks of the columns to the right are the cells of
the runs that start there. -/
theorem blocks_range' (n s : Nat) (hn : s + n = m.cols)
    (hleft : m.active row s = true → s = 0 ∨ m.active row (s - 1) = false) :
    Blocks (m.active row) (List.range' s n)
      ((m.runEndsFrom row (List.range' s n)).map runCells) := by
  induction n using Nat.strong_induction_on generalizing s with
  | _ n ih =>
  cases n with
  | zero => exact .nil
  | succ n =>
    cases hs : m.active row s with
    | false =>
      have hnone : m.runEndsFrom row [s] = [] := by
        apply runEndsFrom_eq_nil
        intro first hfirst last hrun
        rw [List.mem_singleton.mp hfirst] at hrun
        rw [hrun.active s le_rfl hrun.ordered] at hs
        cases hs
      have hrest := ih n (Nat.lt_succ_self n) (s + 1) (by omega) fun _ => .inr hs
      rw [List.range'_succ, ← List.singleton_append, runEndsFrom_append, hnone]
      exact .gap hs hrest
    | true =>
      -- the whole run is taken at once, since no other run starts inside it
      obtain ⟨last, hle, hall, hright⟩ := exists_last hs
      have hrun : m.IsRun row s last := ⟨hle, hall, hleft hs, hright⟩
      have hlast := (lt_cols_of_active (hall last hle le_rfl)).2
      have hinside : m.runEndsFrom row (List.range' (s + 1) (last - s)) = [] := by
        apply runEndsFrom_eq_nil
        intro first hfirst other hother
        have hrange := List.mem_range'_1.mp hfirst
        have hbefore := hall (first - 1) (by omega) (by omega)
        rcases hother.left with hzero | hoff
        · omega
        · rw [hoff] at hbefore
          cases hbefore
      have hsplit : List.range' s (n + 1) =
          List.range' s (last + 1 - s) ++ List.range' (last + 1) (n + s - last) := by
        have hnext : s + (last + 1 - s) = last + 1 := by omega
        have hlength : last + 1 - s + (n + s - last) = n + 1 := by omega
        rw [← hlength, ← List.range'_append_1, hnext]
      have hcells : List.range' s (last + 1 - s) = [s] ++ List.range' (s + 1) (last - s) := by
        have hlength : last + 1 - s = last - s + 1 := by omega
        rw [hlength, List.range'_succ, List.singleton_append]
      have hends : m.runEndsFrom row (List.range' s (last + 1 - s)) = [(s, last)] := by
        rw [hcells, runEndsFrom_append, runEndsFrom_singleton hrun, hinside, List.append_nil]
      have hrest := ih (n + s - last) (by omega) (last + 1) (by omega) fun hon => by
        rw [hright] at hon
        cases hon
      rw [hsplit, runEndsFrom_append, hends]
      refine .block ?_ ?_ ?_ hrest
      · rw [hcells]
        exact List.cons_ne_nil _ _
      · intro col hcol
        have hrange := List.mem_range'_1.mp hcol
        exact hall col (by omega) (by omega)
      · intro col hcol
        have hrange := List.mem_range'_1.mp (List.mem_of_head? hcol)
        cases hk : n + s - last with
        | zero => omega
        | succ k =>
          rw [hk, List.range'_succ] at hcol
          obtain rfl := Option.some.inj hcol
          exact hright

/-- The cells of the runs of a row, runs and cells in the order in which the row is scanned. -/
def scannedRuns (m : ActiveMask) (row : Nat) : List (List Nat) :=
  let runs := (m.runEndsFrom row (List.range m.cols)).map runCells
  if row % 2 = 0 then runs else (runs.map List.reverse).reverse

theorem blocks_zigzagColumns (m : ActiveMask) (row : Nat) :
    Blocks (m.active row) (zigzagColumns row m.cols) (m.scannedRuns row) := by
  have hup : Blocks (m.active row) (List.range' 0 m.cols)
      ((m.runEndsFrom row (List.range' 0 m.cols)).map runCells) :=
    blocks_range' m.cols 0 (Nat.zero_add _) fun _ => .inl rfl
  rw [← List.range_eq_range'] at hup
  unfold zigzagColumns scannedRuns
  split
  · exact hup
  · exact hup.reverse

end ActiveMask

/-! ### Moves -/

variable {α : Type} [Scalar α]

/-- One run: over to its first cell at the safe height, along its cells at the depth of the pass and
with the cut feed, and up. A cell lies at its column and row times the step. -/
def ToolpathParameters.runMoves (p : ToolpathParameters α) (row : Nat) (depth : α)
    (cells : List Nat) : List (Motion α) :=
  (cells.take 1).map (fun col => .rapid ⟨some (Scalar.natural col * p.step),
      some (Scalar.natural row * p.step), some p.safeZ⟩ none) ++
    cells.map (fun col => .cut ⟨some (Scalar.natural col * p.step),
      some (Scalar.natural row * p.step), some depth⟩ (some p.cutFeed)) ++
    [.rapid ⟨none, none, some p.safeZ⟩ none]

theorem ToolpathParameters.map_strokeMove_runStrokes (p : ToolpathParameters α) (row : Nat)
    (depth : α) (cells : List Nat) :
    (runStrokes row cells).map (p.strokeMove depth) = p.runMoves row depth cells := by
  rw [runStrokes, List.map_append, List.map_append, List.map_map, List.map_map]
  rfl

/-- The moves of a pass are those of the runs, row by row; a row with no active cell has none. -/
theorem Generator.passMoves_eq_runs (g : Generator α) (m : ActiveMask) (depth : α) :
    g.params.passMoves m depth = (List.range m.rows).flatMap (fun row =>
      (m.scannedRuns row).flatMap (g.params.runMoves row depth)) ∧
    ∀ row, (∀ col, m.active row col = false) → m.scannedRuns row = [] := by
  constructor
  · have hrow (row : Nat) : (m.scan row false (zigzagColumns row m.cols)).map
        (g.params.strokeMove depth) = (m.scannedRuns row).flatMap (g.params.runMoves row depth) := by
      rw [ActiveMask.scan_of_blocks (m.blocks_zigzagColumns row), List.map_flatMap]
      simp only [ToolpathParameters.map_strokeMove_runStrokes]
    simp only [ToolpathParameters.passMoves, ActiveMask.strokes, List.map_flatMap, hrow]
  · intro row hrow
    have hnone : m.runEndsFrom row (List.range m.cols) = [] := by
      apply ActiveMask.runEndsFrom_eq_nil
      intro first _ last hrun
      have hfirst := hrun.active first le_rfl hrun.ordered
      rw [hrow first] at hfirst
      cases hfirst
    simp [ActiveMask.scannedRuns, hnone]

/-- A row scanned downwards: a single cell at the right end, then two cells from right to left. -/
example : (ActiveMask.mk 2 4 #[true, true, false, true, true, true, false, true]).scannedRuns 1 =
    [[3], [1, 0]] := by decide

end BasRelief
