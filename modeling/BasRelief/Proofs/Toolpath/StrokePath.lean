import BasRelief.Proofs.Toolpath.Replay
import BasRelief.Toolpath.Raster
import Mathlib.Data.List.Chain

/-!
# Strokes as a path of the tool

During the scan of a mask the tool is raised, or it stands above a cell, or it is inside one. The
strokes of a scan lead from one of these states to the next and end with the tool raised, whatever
the mask. Where the tool is tells where the machine is, so a path of strokes says of every move of
a pass where it starts and where it ends.
-/

namespace BasRelief

inductive Tool where
  | raised
  | above (row col : Nat)
  | inside (row col : Nat)
  deriving DecidableEq, Repr

def Adjacent (col next : Nat) : Prop := next = col + 1 ∨ col = next + 1

inductive Leads (m : ActiveMask) : Tool → Stroke → Tool → Prop where
  | approach {row col : Nat} (active : m.active row col = true) :
      Leads m .raised (.approach row col) (.above row col)
  | plunge {row col : Nat} (active : m.active row col = true) :
      Leads m (.above row col) (.carve row col) (.inside row col)
  | advance {row col next : Nat} (active : m.active row col = true)
      (nextActive : m.active row next = true) (adjacent : Adjacent col next) :
      Leads m (.inside row col) (.carve row next) (.inside row next)
  | retract {row col : Nat} : Leads m (.inside row col) .retract .raised

inductive StrokePath (m : ActiveMask) : Tool → List Stroke → Tool → Prop where
  | nil (t : Tool) : StrokePath m t [] t
  | cons {t u v : Tool} {s : Stroke} {ss : List Stroke} (first : Leads m t s u)
      (rest : StrokePath m u ss v) : StrokePath m t (s :: ss) v

namespace StrokePath

theorem append {m : ActiveMask} {t u v : Tool} {a b : List Stroke}
    (ha : StrokePath m t a u) (hb : StrokePath m u b v) : StrokePath m t (a ++ b) v := by
  induction ha with
  | nil t => exact hb
  | cons first _ ih => exact .cons first (ih hb)

theorem flatMap {β : Type} {m : ActiveMask} (f : β → List Stroke) (bs : List β)
    (h : ∀ b ∈ bs, StrokePath m .raised (f b) .raised) :
    StrokePath m .raised (bs.flatMap f) .raised := by
  induction bs with
  | nil => exact .nil _
  | cons b bs ih =>
    have hb := h b List.mem_cons_self
    have hbs := ih fun c hc => h c (List.mem_cons_of_mem _ hc)
    exact hb.append hbs

end StrokePath

/-! ### The scan -/

theorem isChain_zigzagColumns (row cols : Nat) : (zigzagColumns row cols).IsChain Adjacent := by
  have up : (List.range cols).IsChain fun a b => b = a + 1 := by
    rw [List.isChain_iff_getElem]
    intro i hi
    simp only [List.getElem_range]
  unfold zigzagColumns
  split
  · exact up.imp fun a b h => Or.inl h
  · rw [List.isChain_reverse]
    exact up.imp fun a b h => Or.inr h

namespace ActiveMask

/-- Over columns side by side, a scan leads from where the tool is to the raised tool. Both values
of the flag are needed at once, since either can follow the other. -/
theorem strokePath_scan (m : ActiveMask) (row : Nat) (cols : List Nat) :
    (cols.IsChain Adjacent → StrokePath m .raised (m.scan row false cols) .raised) ∧
      ∀ col, (col :: cols).IsChain Adjacent → m.active row col = true →
        StrokePath m (.inside row col) (m.scan row true cols) .raised := by
  induction cols with
  | nil =>
    refine ⟨fun _ => .nil _, fun col _ _ => ?_⟩
    exact .cons .retract (.nil _)
  | cons next cols ih =>
    constructor
    · intro hchain
      cases hn : m.active row next with
      | false =>
        simp only [scan, hn]
        exact ih.1 hchain.tail
      | true =>
        simp only [scan, hn]
        exact .cons (.approach hn) (.cons (.plunge hn) (ih.2 next hchain hn))
    · intro col hchain hcol
      obtain ⟨hadj, hrest⟩ := List.isChain_cons_cons.1 hchain
      cases hn : m.active row next with
      | false =>
        simp only [scan, hn]
        exact .cons .retract (ih.1 hrest.tail)
      | true =>
        simp only [scan, hn]
        exact .cons (.advance hcol hn hadj) (ih.2 next hrest hn)

theorem strokePath_strokes (m : ActiveMask) : StrokePath m .raised m.strokes .raised := by
  apply StrokePath.flatMap
  intro row _
  exact (m.strokePath_scan row (zigzagColumns row m.cols)).1 (isChain_zigzagColumns row m.cols)

end ActiveMask

/-! ### The machine along a path -/

variable {α : Type} [Scalar α]

/-- Where the machine is when the tool is in a state of a pass. -/
def Tool.At (p : ToolpathParameters α) (depth : α) : Tool → Position α → Prop
  | .raised, q => q.z = p.safeZ
  | .above row col, q => q = ⟨p.place col, p.place row, p.safeZ⟩
  | .inside row col, q => q = ⟨p.place col, p.place row, depth⟩

/-- The two kinds of cuts of a pass: straight down at an active cell, or at the depth of the pass
from an active cell to the active cell beside it. -/
inductive CutLeg (p : ToolpathParameters α) (m : ActiveMask) (depth : α) : Leg α → Prop where
  | plunge {row col : Nat} (active : m.active row col = true) :
      CutLeg p m depth ⟨⟨p.place col, p.place row, p.safeZ⟩, p.cutAt row col depth⟩
  | advance {row col next : Nat} (active : m.active row col = true)
      (nextActive : m.active row next = true) (adjacent : Adjacent col next) :
      CutLeg p m depth ⟨⟨p.place col, p.place row, depth⟩, p.cutAt row next depth⟩

/-- One stroke: the machine follows the tool, a traverse is clear, and a cut is of one of the two
kinds. -/
theorem Leads.leg {p : ToolpathParameters α} {m : ActiveMask} {depth : α} {t u : Tool}
    {s : Stroke} (h : Leads m t s u) {q : Position α} (hq : t.At p depth q) :
    u.At p depth ((p.strokeMove depth s).target.move q) ∧
      (⟨q, p.strokeMove depth s⟩ : Leg α).Clear p.safeZ ∧
      ((p.strokeMove depth s).isCut = true → CutLeg p m depth ⟨q, p.strokeMove depth s⟩) := by
  cases h with
  | approach active =>
    refine ⟨rfl, fun _ _ => ⟨hq, rfl⟩, fun hc => ?_⟩
    cases hc
  | plunge active =>
    have hs : q = _ := hq
    subst hs
    refine ⟨rfl, fun hr => ?_, fun _ => .plunge active⟩
    cases hr
  | advance active nextActive adjacent =>
    have hs : q = _ := hq
    subst hs
    refine ⟨rfl, fun hr => ?_, fun _ => .advance active nextActive adjacent⟩
    cases hr
  | retract =>
    refine ⟨rfl, fun _ hp => ?_, fun hc => ?_⟩
    · cases hp
    · cases hc

/-- A whole path: the machine ends where the tool does, every leg is clear, and every cut is of one
of the two kinds. -/
theorem StrokePath.legs {p : ToolpathParameters α} {m : ActiveMask} {depth : α} {t u : Tool}
    {ss : List Stroke} (h : StrokePath m t ss u) {q : Position α} (hq : t.At p depth q) :
    u.At p depth (Motion.replay q (ss.map (p.strokeMove depth))) ∧
      ∀ l ∈ Motion.legs q (ss.map (p.strokeMove depth)),
        l.Clear p.safeZ ∧ (l.motion.isCut = true → CutLeg p m depth l) := by
  induction h generalizing q with
  | nil t => exact ⟨hq, fun l hl => by cases hl⟩
  | cons first _ ih =>
    obtain ⟨hnext, hclear, hcut⟩ := first.leg hq
    obtain ⟨hend, hrest⟩ := ih hnext
    refine ⟨hend, fun l hl => ?_⟩
    rcases List.mem_cons.1 hl with rfl | hl
    · exact ⟨hclear, hcut⟩
    · exact hrest l hl

end BasRelief
