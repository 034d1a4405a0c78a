import BasRelief.Proofs.Toolpath.StrokePath
import Mathlib.Algebra.BigOperators.Intervals

/-!
# Runs of active cells

A run is a stretch of active cells of one row that cannot be made longer. A scan approaches each
run once, at its first cell where the row is scanned upwards and at its last cell where it is
scanned downwards, and retracts as often as it approaches.
-/

namespace BasRelief
open Finset

namespace ActiveMask

theorem lt_cols_of_active {m : ActiveMask} {row col : Nat} (h : m.active row col = true) :
    row < m.rows ∧ col < m.cols := by
  simp only [active, Bool.and_eq_true, decide_eq_true_eq] at h
  exact h.1

/-! ### Runs -/

/-- All cells from the first to the last are active, and the cells beside them are not. -/
structure IsRun (m : ActiveMask) (row first last : Nat) : Prop where
  ordered : first ≤ last
  active : ∀ col, first ≤ col → col ≤ last → m.active row col = true
  left : first = 0 ∨ m.active row (first - 1) = false
  right : m.active row (last + 1) = false

theorem isRun_iff {m : ActiveMask} {row first last : Nat} :
    m.IsRun row first last ↔
      first ≤ last ∧ (∀ col ≤ last, first ≤ col → m.active row col = true) ∧
        (first = 0 ∨ m.active row (first - 1) = false) ∧ m.active row (last + 1) = false :=
  ⟨fun h => ⟨h.1, fun col hl hf => h.2 col hf hl, h.3, h.4⟩,
    fun h => ⟨h.1, fun col hf hl => h.2.1 col hl hf, h.2.2.1, h.2.2.2⟩⟩

instance (m : ActiveMask) (row first last : Nat) : Decidable (m.IsRun row first last) :=
  decidable_of_iff _ isRun_iff.symm

def rowRuns (m : ActiveMask) (row : Nat) : Finset (Nat × Nat) :=
  (range m.cols ×ˢ range m.cols).filter fun ends => m.IsRun row ends.1 ends.2

def runCount (m : ActiveMask) : Nat := ∑ row ∈ range m.rows, (m.rowRuns row).card

theorem mem_rowRuns {m : ActiveMask} {row first last : Nat} :
    (first, last) ∈ m.rowRuns row ↔ m.IsRun row first last := by
  simp only [rowRuns, mem_filter, mem_product, mem_range, and_iff_right_iff_imp]
  intro h
  have hf := lt_cols_of_active (h.active first le_rfl h.ordered)
  have hl := lt_cols_of_active (h.active last h.ordered le_rfl)
  exact ⟨hf.2, hl.2⟩

/-! ### A run is known by either end -/

def isFirst (m : ActiveMask) (row col : Nat) : Bool :=
  m.active row col && (col = 0 || !m.active row (col - 1))

def isLast (m : ActiveMask) (row col : Nat) : Bool :=
  m.active row col && !m.active row (col + 1)

theorem exists_last {m : ActiveMask} {row col : Nat} (h : m.active row col = true) :
    ∃ last, col ≤ last ∧ (∀ c, col ≤ c → c ≤ last → m.active row c = true) ∧
      m.active row (last + 1) = false := by
  obtain ⟨k, hk⟩ : ∃ k, m.cols - col = k := ⟨_, rfl⟩
  induction k generalizing col with
  | zero =>
    have hc := (lt_cols_of_active h).2
    omega
  | succ k ih =>
    cases hn : m.active row (col + 1) with
    | false =>
      refine ⟨col, le_rfl, fun c hf hl => ?_, hn⟩
      have hc : c = col := by omega
      rw [hc, h]
    | true =>
      obtain ⟨last, hle, hall, hright⟩ := ih hn (by omega)
      refine ⟨last, by omega, fun c hf hl => ?_, hright⟩
      by_cases hc : c = col
      · rw [hc, h]
      · exact hall c (by omega) hl

theorem exists_first {m : ActiveMask} {row col : Nat} (h : m.active row col = true) :
    ∃ first, first ≤ col ∧ (∀ c, first ≤ c → c ≤ col → m.active row c = true) ∧
      (first = 0 ∨ m.active row (first - 1) = false) := by
  induction col with
  | zero =>
    refine ⟨0, le_rfl, fun c _ hl => ?_, Or.inl rfl⟩
    have hc : c = 0 := by omega
    rw [hc, h]
  | succ col ih =>
    cases hp : m.active row col with
    | false =>
      refine ⟨col + 1, le_rfl, fun c hf hl => ?_, Or.inr hp⟩
      have hc : c = col + 1 := by omega
      rw [hc, h]
    | true =>
      obtain ⟨first, hle, hall, hleft⟩ := ih hp
      refine ⟨first, by omega, fun c hf hl => ?_, hleft⟩
      by_cases hc : c = col + 1
      · rw [hc, h]
      · exact hall c hf (by omega)

theorem IsRun.last_le {m : ActiveMask} {row first last other : Nat}
    (h : m.IsRun row first last) (ho : m.IsRun row first other) : other ≤ last := by
  by_contra hlt
  have hnext := ho.active (last + 1) (by have := h.ordered; omega) (by omega)
  rw [h.right] at hnext
  cases hnext

theorem IsRun.first_le {m : ActiveMask} {row first other last : Nat}
    (h : m.IsRun row first last) (ho : m.IsRun row other last) : first ≤ other := by
  by_contra hlt
  have hbefore := ho.active (first - 1) (by omega) (by have := h.ordered; omega)
  rcases h.left with hz | hl
  · omega
  · rw [hl] at hbefore
    cases hbefore

theorem card_rowRuns_eq_firsts (m : ActiveMask) (row : Nat) :
    (m.rowRuns row).card = ((range m.cols).filter fun col => m.isFirst row col).card := by
  apply card_bij fun ends _ => ends.1
  · rintro ⟨first, last⟩ h
    have hrun := mem_rowRuns.1 h
    have hf := hrun.active first le_rfl hrun.ordered
    refine mem_filter.2 ⟨mem_range.2 (lt_cols_of_active hf).2, ?_⟩
    simpa only [isFirst, hf, Bool.true_and, Bool.or_eq_true, decide_eq_true_eq,
      Bool.not_eq_true'] using hrun.left
  · rintro ⟨first, last⟩ h ⟨first', last'⟩ h' heq
    have hfirst : first = first' := heq
    subst hfirst
    have hrun := mem_rowRuns.1 h
    have hrun' := mem_rowRuns.1 h'
    have hlast : last = last' := le_antisymm (hrun'.last_le hrun) (hrun.last_le hrun')
    rw [hlast]
  · intro first h
    simp only [mem_filter, mem_range, isFirst, Bool.and_eq_true, Bool.or_eq_true,
      decide_eq_true_eq, Bool.not_eq_true'] at h
    obtain ⟨last, hle, hall, hright⟩ := exists_last h.2.1
    exact ⟨(first, last), mem_rowRuns.2 ⟨hle, hall, h.2.2, hright⟩, rfl⟩

theorem card_rowRuns_eq_lasts (m : ActiveMask) (row : Nat) :
    (m.rowRuns row).card = ((range m.cols).filter fun col => m.isLast row col).card := by
  apply card_bij fun ends _ => ends.2
  · rintro ⟨first, last⟩ h
    have hrun := mem_rowRuns.1 h
    have hl := hrun.active last hrun.ordered le_rfl
    refine mem_filter.2 ⟨mem_range.2 (lt_cols_of_active hl).2, ?_⟩
    simp only [isLast, hl, hrun.right, Bool.not_false, Bool.and_true]
  · rintro ⟨first, last⟩ h ⟨first', last'⟩ h' heq
    have hlast : last = last' := heq
    subst hlast
    have hrun := mem_rowRuns.1 h
    have hrun' := mem_rowRuns.1 h'
    have hfirst : first = first' := le_antisymm (hrun.first_le hrun') (hrun'.first_le hrun)
    rw [hfirst]
  · intro last h
    simp only [mem_filter, mem_range, isLast, Bool.and_eq_true, Bool.not_eq_true'] at h
    obtain ⟨first, hle, hall, hleft⟩ := exists_first h.2.1
    exact ⟨(first, last), mem_rowRuns.2 ⟨hle, hall, hleft, h.2.2⟩, rfl⟩

end ActiveMask

/-! ### Approaches and retracts of a scan -/

namespace Stroke

def isApproach : Stroke → Bool
  | approach .. => true
  | _ => false

def isRetract : Stroke → Bool
  | retract => true
  | _ => false

end Stroke

/-- How many retracts the tool is away from being raised. -/
def Tool.lowered : Tool → Nat
  | .raised => 0
  | _ => 1

theorem StrokePath.countP_retract {m : ActiveMask} {t u : Tool} {ss : List Stroke}
    (h : StrokePath m t ss u) :
    t.lowered + ss.countP Stroke.isApproach = u.lowered + ss.countP Stroke.isRetract := by
  induction h with
  | nil t => rfl
  | cons first _ ih =>
    rw [List.countP_cons, List.countP_cons]
    cases first <;>
      simp only [Tool.lowered, Stroke.isApproach, Stroke.isRetract, if_true, if_false,
        Bool.false_eq_true] at ih ⊢ <;> omega

namespace ActiveMask

theorem countP_approach_cons (m : ActiveMask) (row col : Nat) (cutting : Bool) (cols : List Nat) :
    (m.scan row cutting (col :: cols)).countP Stroke.isApproach =
      (m.scan row (m.active row col) cols).countP Stroke.isApproach +
        if m.active row col && !cutting then 1 else 0 := by
  cases cutting <;> cases ha : m.active row col <;>
    simp [scan, ha, List.countP_cons, Stroke.isApproach]

/-- Upwards, with the flag telling of the column before, the approaches are the first cells. -/
theorem countP_approach_up (m : ActiveMask) (row n s : Nat) (cutting : Bool)
    (h : cutting = (decide (s ≠ 0) && m.active row (s - 1))) :
    (m.scan row cutting (List.range' s n)).countP Stroke.isApproach =
      (List.range' s n).countP (m.isFirst row) := by
  induction n generalizing s cutting with
  | zero => cases cutting <;> rfl
  | succ n ih =>
    have hrest := ih (s + 1) (m.active row s) (by simp)
    have hfirst : m.isFirst row s = (m.active row s && !cutting) := by
      rw [h, isFirst]
      by_cases hs : s = 0 <;> simp [hs]
    rw [List.range'_succ, countP_approach_cons, List.countP_cons, hrest, hfirst]

theorem countP_approach_down (m : ActiveMask) (row n : Nat) :
    (m.scan row (m.active row n) (List.range n).reverse).countP Stroke.isApproach =
      (List.range n).countP (m.isLast row) := by
  induction n with
  | zero => cases h : m.active row 0 <;> rfl
  | succ n ih =>
    rw [List.range_succ, List.reverse_append, List.countP_append, List.reverse_singleton,
      List.singleton_append, countP_approach_cons, ih, List.countP_singleton]
    rfl

theorem card_filter_range (n : Nat) (p : Nat → Bool) :
    ((range n).filter fun i => p i).card = (List.range n).countP p := by
  rw [← List.toFinset_range, List.countP_eq_length_filter, ← List.toFinset_filter,
    List.toFinset_card_of_nodup (List.nodup_range.filter _)]

theorem countP_approach_row (m : ActiveMask) (row : Nat) :
    (m.scan row false (zigzagColumns row m.cols)).countP Stroke.isApproach =
      (m.rowRuns row).card := by
  unfold zigzagColumns
  split
  · have hup := m.countP_approach_up row m.cols 0 false (by simp)
    rw [card_rowRuns_eq_firsts, card_filter_range, List.range_eq_range', hup]
  · have hout : m.active row m.cols = false := by simp [active]
    have hdown := m.countP_approach_down row m.cols
    rw [hout] at hdown
    rw [card_rowRuns_eq_lasts, card_filter_range, hdown]

theorem countP_approach_strokes (m : ActiveMask) :
    m.strokes.countP Stroke.isApproach = m.runCount := by
  have hrows : (m.strokes.countP Stroke.isApproach) =
      ((List.range m.rows).map fun row => (m.rowRuns row).card).sum := by
    simp only [strokes, List.countP_flatMap, Function.comp_def, countP_approach_row]
  rw [hrows]
  rfl

theorem countP_retract_strokes (m : ActiveMask) :
    m.strokes.countP Stroke.isRetract = m.runCount := by
  have h := m.strokePath_strokes.countP_retract
  rw [countP_approach_strokes] at h
  simp only [Tool.lowered] at h
  omega

end ActiveMask
end BasRelief
