import BasRelief.Config.Settings
import BasRelief.Proofs.Number.Order
import BasRelief.Toolpath.Generator

/-!
# What an accepted configuration guarantees

Every rule of an accepted configuration holds. The generator that is made of its parameters has a
step above zero, whatever the resolution is rounded to.
-/

namespace BasRelief

/-! ### Configurations -/

namespace Config

theorem holds_of_fault?_eq_none {c : Config} (h : c.fault? = none) {rule : Rule}
    (hrule : rule ∈ c.rules) : rule.holds = true :=
  c.fault?_eq_none_iff.mp h rule hrule

theorem stepsPerMm_pos {c : Config} (h : c.fault? = none) :
    Scalar.isPositive c.generator.stepsPerMm = true :=
  holds_of_fault?_eq_none h
    (show positiveRule "passos_por_mm" c.generator.stepsPerMm ∈ c.rules by simp [rules])

theorem cutFeed_pos {c : Config} (h : c.fault? = none) :
    Scalar.isPositive c.generator.cutFeed = true :=
  holds_of_fault?_eq_none h
    (show positiveRule "velocidade_f_corte" c.generator.cutFeed ∈ c.rules by simp [rules])

theorem safeZ_pos {c : Config} (h : c.fault? = none) :
    Scalar.isPositive c.generator.safeZ = true :=
  holds_of_fault?_eq_none h
    (show positiveRule "altura_seguranca_z" c.generator.safeZ ∈ c.rules by simp [rules])

theorem isNonNegative_iff {x : Float} :
    isNonNegative x = true ↔ ∃ a, Double.value? x = some a ∧ 0 ≤ a := by
  have hzero : Double.value? (0 : Float) = some 0 := by decide +kernel
  have hfinite : x.isFinite = true ↔ ∃ a, Double.value? x = some a := Double.isFinite_iff x
  rw [isNonNegative, Bool.and_eq_true, hfinite]
  constructor
  · rintro ⟨⟨a, ha⟩, hnonneg⟩
    exact ⟨a, ha, (Double.atMost_iff hzero ha).mp hnonneg⟩
  · rintro ⟨a, ha, hnonneg⟩
    exact ⟨⟨a, ha⟩, (Double.atMost_iff hzero ha).mpr hnonneg⟩

theorem floatTolerance_nonneg {c : Config} (h : c.fault? = none) :
    ∃ b, Double.value? c.analyzer.floatTolerance = some b ∧ 0 ≤ b :=
  isNonNegative_iff.mp (holds_of_fault?_eq_none h
    (show nonNegativeRule "tolerancia_flutuante" c.analyzer.floatTolerance ∈ c.rules by
      simp [rules]))

end Config

/-! ### Generators -/

namespace Generator
variable {α : Type} [Scalar α]

theorem ofParameters_eq_ok {p : ToolpathParameters α} (h : p.fault? = none) :
    ofParameters p = .ok ⟨p, h⟩ := by
  unfold ofParameters
  split
  · simp_all
  · rfl

theorem params_of_ofParameters {p : ToolpathParameters α} {g : Generator α}
    (h : ofParameters p = .ok g) : g.params = p := by
  unfold ofParameters at h
  split at h
  · cases h
  · exact congrArg Generator.params (Except.ok.inj h).symm

theorem limit_pos (g : Generator α) : Scalar.isPositive g.params.maxDepthPerPass = true := by
  have haccepted := g.accepted
  unfold ToolpathParameters.fault? at haccepted
  split at haccepted
  · cases haccepted
  split at haccepted
  · cases haccepted
  split at haccepted
  · cases haccepted
  · simp_all

theorem step_pos (g : Generator α) : Scalar.isPositive g.params.step = true := by
  have haccepted := g.accepted
  unfold ToolpathParameters.fault? at haccepted
  split at haccepted
  · cases haccepted
  · simp_all

end Generator
end BasRelief
