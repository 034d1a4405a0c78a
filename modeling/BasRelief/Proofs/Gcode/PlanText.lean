import BasRelief.Proofs.Gcode.ProgramLines
import BasRelief.Proofs.Toolpath.Sections

/-!
# Every step of a made plan is one line

The comments of a plan hold titles, counts and values, and the time at which it was made. If the
time is a line, every comment is, and the text of the plan has one line for each step.
-/

namespace BasRelief

theorem isLine_append {a b : String} (ha : Text.IsLine a.toList) (hb : Text.IsLine b.toList) :
    Text.IsLine (a ++ b).toList := by
  rw [String.toList_append]
  exact ha.append hb

theorem isLine_natText (n : Nat) : Text.IsLine (Decimal.natText n).toList := by
  intro c hc
  rw [Decimal.natText, String.toList_ofList] at hc
  have hdigit := Decimal.isDigit_of_mem_digits hc
  exact Gcode.forall_isDigit (p := fun c => c ≠ '\n' ∧ c ≠ '\r') (by decide) hdigit

theorem isLine_fixed {α : Type} [Scalar α] [PrintsValues α] (places : Nat) (v : α) :
    Text.IsLine (Scalar.fixed places v).toList := by
  intro c hc
  exact Gcode.ne_of_solid ((PrintsValues.fixed places v).solid c hc)

namespace Generator
variable {α : Type} [Scalar α] [PrintsValues α]

/-! ### Comments -/

theorem isLine_titleLines (p : ToolpathParameters α) {time title : String}
    (htime : Text.IsLine time.toList) (htitle : Text.IsLine title.toList) (rows cols : Nat) :
    ∀ text ∈ titleLines p time title rows cols, Text.IsLine text.toList := by
  intro text h
  simp only [titleLines, List.mem_cons, List.not_mem_nil, or_false] at h
  obtain rfl | rfl | rfl | rfl | rfl | rfl := h
  · exact htitle
  · exact isLine_append (by decide) htime
  · refine isLine_append (isLine_append (isLine_append (isLine_append (isLine_append
      (isLine_append ?_ (isLine_natText cols)) ?_) (isLine_natText rows)) ?_)
      (isLine_fixed 3 p.step)) ?_ <;> decide
  · refine isLine_append (isLine_append (isLine_append (isLine_append ?_ (isLine_fixed 2 _)) ?_)
      (isLine_fixed 2 _)) ?_ <;> decide
  · exact isLine_append (isLine_append (by decide) (isLine_fixed 3 p.toolDiameter)) (by decide)
  · exact isLine_append (isLine_append (by decide) (isLine_fixed 0 p.cutFeed)) (by decide)

theorem isLine_passComment (number count : Nat) (depth : α) :
    Text.IsLine (passComment number count depth).toList := by
  refine isLine_append (isLine_append (isLine_append (isLine_append (isLine_append ?_
    (isLine_natText number)) ?_) (isLine_natText count)) ?_) (isLine_fixed 3 depth) <;> decide

theorem isLine_depthComment (p : ToolpathParameters α) (total : α) (count : Nat) :
    Text.IsLine (depthComment p total count).toList := by
  refine isLine_append (isLine_append (isLine_append (isLine_append (isLine_append
    (isLine_append ?_ (isLine_fixed 3 total)) ?_) (isLine_natText count)) ?_)
    (isLine_fixed 3 p.maxDepthPerPass)) ?_ <;> decide

/-! ### Steps -/

omit [Scalar α] [PrintsValues α] in
theorem isOneLine_of_mem_motions {ms : List (Motion α)} {s : PlanStep α}
    (h : s ∈ ms.map PlanStep.motion) : s.IsOneLine := by
  obtain ⟨m, _, rfl⟩ := List.mem_map.mp h
  trivial

theorem isOneLine_of_mem_header {p : ToolpathParameters α} {time title : String}
    (htime : Text.IsLine time.toList) (htitle : Text.IsLine title.toList) {rows cols : Nat}
    {s : PlanStep α} (h : s ∈ header p time title rows cols) : s.IsOneLine := by
  obtain h | h := List.mem_append.mp h
  · obtain ⟨text, ht, rfl⟩ := List.mem_map.mp h
    exact isLine_titleLines p htime htitle rows cols text ht
  · simp only [setup, List.mem_cons, List.not_mem_nil, or_false] at h
    obtain rfl | rfl | rfl | rfl | rfl | rfl := h <;> trivial

omit [PrintsValues α] in
theorem isOneLine_of_mem_footer {p : ToolpathParameters α} {s : PlanStep α} (h : s ∈ footer p) :
    s.IsOneLine := by
  simp only [footer, List.mem_cons, List.not_mem_nil, or_false] at h
  obtain rfl | rfl | rfl | rfl | rfl := h
  · show Text.IsLine "End of program".toList
    decide
  all_goals trivial

theorem isOneLine_of_mem_passSteps {p : ToolpathParameters α} {mask : ActiveMask}
    {count index : Nat} {depth : α} {s : PlanStep α}
    (h : s ∈ passSteps p mask count depth index) : s.IsOneLine := by
  obtain rfl | h := List.mem_cons.mp h
  · exact isLine_passComment (index + 1) count depth
  · exact isOneLine_of_mem_motions h

theorem Makes.isOneLine {g : Generator α} {time : String} {plan : Plan α}
    (h : g.Makes time plan) (htime : Text.IsLine time.toList) :
    ∀ s ∈ plan.steps, s.IsOneLine := by
  intro s hs
  cases h with
  | single grid =>
    simp only [singlePass, List.mem_append, List.mem_singleton] at hs
    obtain ((hs | rfl) | hs) | hs := hs
    · exact isOneLine_of_mem_header htime (by decide) hs
    · exact isLine_append (isLine_append (by decide) (isLine_fixed 3 grid.maxHeight)) (by decide)
    · exact isOneLine_of_mem_motions hs
    · exact isOneLine_of_mem_footer hs
  | @multi mask total plan h =>
    obtain ⟨ds, _, rfl⟩ := multiPass_eq_ok h
    simp only [planOfDepths, List.mem_append, List.mem_singleton, List.mem_flatMap] at hs
    obtain ((hs | rfl) | ⟨d, _, hs⟩) | hs := hs
    · exact isOneLine_of_mem_header htime (by decide) hs
    · exact isLine_depthComment g.params total ds.length
    · exact isOneLine_of_mem_passSteps hs
    · exact isOneLine_of_mem_footer hs

end Generator
end BasRelief
