import BasRelief.Pipeline
import BasRelief.Proofs.Config.Accepted
import BasRelief.Proofs.Toolpath.PassDepths

/-!
# Accepted configurations in use

The configuration is checked by its own rules, and what is made of it is checked again where it is
used. The two agree but at the ends of the range of doubles: a resolution whose step is infinite is
refused by the generator, and a depth of more passes than can be listed has none.
-/

namespace BasRelief
open Double

/-! ### The step -/

namespace GeneratorSettings

theorem rounds_step {g : GeneratorSettings} {s : Rat} (hs : value? g.stepsPerMm = some s)
    (hpos : 0 < s) : Rounds g.step (1 / s) := by
  have hone : value? (1 : Float) = some 1 := by decide +kernel
  exact rounds_div hone hs hpos.ne'

/-- The step never vanishes: the greatest resolution has a step above the least double. -/
theorem isPositive_step_iff {g : GeneratorSettings} {s : Rat} (hs : value? g.stepsPerMm = some s)
    (hpos : 0 < s) : Scalar.isPositive g.step = true ↔ 1 / s < overflowBound := by
  have hrounds := rounds_step hs hpos
  have hstep : 0 < 1 / s := one_div_pos.mpr hpos
  have hleast : (2 : Rat) ^ (-1074 : Int) ≤ 1 / s := by
    have hbound : s ≤ 2 ^ (1024 : Int) :=
      ((le_abs_self s).trans (abs_le_of_value? hs)).trans greatestValue_lt.le
    calc (2 : Rat) ^ (-1074 : Int) ≤ 2 ^ (-1024 : Int) :=
          zpow_le_zpow_right₀ one_le_two (by decide)
      _ = 1 / 2 ^ (1024 : Int) := by rw [zpow_neg, one_div]
      _ ≤ 1 / s := one_div_le_one_div_of_le hpos hbound
  have hsign := (hrounds.less_zero_iff (.inr hleast)).mpr hstep
  rw [Scalar.isPositive, hsign, Bool.and_true, hrounds.isFinite_iff, abs_of_pos hstep]

end GeneratorSettings

/-! ### Rules and checks -/

namespace Config

theorem maxDepthPerPass_pos {c : Config} (h : c.fault? = none) :
    Scalar.isPositive c.generator.maxDepthPerPass = true :=
  holds_of_fault?_eq_none h
    (show positiveRule "profundidade_max_corte" c.generator.maxDepthPerPass ∈ c.rules by
      simp [rules])

theorem totalDepth_finite {c : Config} (h : c.fault? = none) :
    Scalar.isFinite c.generator.totalDepth = true :=
  holds_of_fault?_eq_none h
    (show ⟨"profundidade_total", c.generator.totalDepth.isFinite, "must be finite"⟩ ∈ c.rules by
      simp [rules])

theorem reliefDepth_nonneg {c : Config} (h : c.fault? = none) :
    isNonNegative c.generator.reliefDepth = true :=
  holds_of_fault?_eq_none h
    (show nonNegativeRule "profundidade_relevo" c.generator.reliefDepth ∈ c.rules by simp [rules])

/-- Of the checks of the generator, only that of the step is no rule of the configuration. -/
theorem toolpath_fault? {c : Config} (h : c.fault? = none) :
    c.generator.toolpath.fault? =
      if Scalar.isPositive c.generator.step then none
      else some (notPositive "step_mm" c.generator.step) := by
  have hfeed : Scalar.isPositive c.generator.toolpath.cutFeed = true := cutFeed_pos h
  have hdepth : Scalar.isPositive c.generator.toolpath.maxDepthPerPass = true :=
    maxDepthPerPass_pos h
  have hstep : c.generator.toolpath.step = c.generator.step := rfl
  rw [ToolpathParameters.fault?, hfeed, hdepth, hstep]
  cases Scalar.isPositive c.generator.step <;> rfl

/-- The rule of the relief depth is the check of the grid, on zero written in another way. -/
theorem reliefDepth_fault? {c : Config} (h : c.fault? = none) :
    Field.depthFault? c.generator.reliefDepth = none := by
  obtain ⟨b, hb, hnonneg⟩ := isNonNegative_iff.mp (reliefDepth_nonneg h)
  have hcheck : Scalar.atMost Scalar.zero c.generator.reliefDepth = true :=
    (atMost_iff value?_zero hb).mpr hnonneg
  have hfinite : Scalar.isFinite c.generator.reliefDepth = true := (isFinite_iff _).mpr ⟨b, hb⟩
  rw [Field.depthFault?, hfinite, hcheck]
  rfl

end Config

namespace Generator

theorem ofParameters_eq_error {α : Type} [Scalar α] {p : ToolpathParameters α}
    {e : ParameterError α} (h : p.fault? = some e) : ofParameters p = .error e := by
  unfold ofParameters
  split
  · simp_all
  · simp_all

end Generator

/-! ### Agreement -/

/-- An accepted configuration gives a generator unless its step is infinite; it has pass depths
unless they are too many to be listed; and its relief depth is one that grids accept. -/
theorem Config.accepted_in_use {c : Config} (h : c.fault? = none) :
    ∃ s t l : Rat, value? c.generator.stepsPerMm = some s ∧
      value? c.generator.totalDepth = some t ∧ value? c.generator.maxDepthPerPass = some l ∧
      0 < s ∧ 0 < l ∧
      (1 / s < overflowBound →
        ∃ g, Generator.ofParameters c.generator.toolpath = .ok g) ∧
      (overflowBound ≤ 1 / s → Generator.ofParameters c.generator.toolpath =
        .error (notPositive "step_mm" c.generator.step)) ∧
      (-t / l < 2 ^ 60 - 2 ^ 6 →
        ∃ depths, passDepths c.generator.totalDepth c.generator.maxDepthPerPass = .ok depths) ∧
      ∀ e, ∃ depth, GenerationMode.grayscaleOf c.generator e = .grayscale depth e ∧
        Field.depthFault? depth = none := by
  obtain ⟨s, hs, hs0⟩ := (isPositive_iff _).mp (stepsPerMm_pos h)
  obtain ⟨l, hl, hl0⟩ := (isPositive_iff _).mp (maxDepthPerPass_pos h)
  obtain ⟨t, ht⟩ := (isFinite_iff _).mp (totalDepth_finite h)
  have hstep := GeneratorSettings.isPositive_step_iff hs hs0
  have hfault := toolpath_fault? h
  refine ⟨s, t, l, hs, ht, hl, hs0, hl0, ?finite, ?infinite, passDepths_isOk ht hl hl0,
    fun _ => ⟨_, rfl, reliefDepth_fault? h⟩⟩
  case finite =>
    intro hfinite
    rw [if_pos (hstep.mpr hfinite)] at hfault
    exact ⟨_, Generator.ofParameters_eq_ok hfault⟩
  case infinite =>
    intro hinfinite
    rw [if_neg (mt hstep.mp (not_lt.mpr hinfinite))] at hfault
    exact Generator.ofParameters_eq_error hfault

theorem defaultConfig_in_use :
    ({} : Config).fault? = none ∧
    (∃ g, Generator.ofParameters ({} : Config).generator.toolpath = .ok g) ∧
    ∃ depths, passDepths ({} : Config).generator.totalDepth
      ({} : Config).generator.maxDepthPerPass = .ok depths := by
  have hvalid : ({} : Config).fault? = none := by decide +kernel
  obtain ⟨s, t, l, hs, ht, hl, _, _, hgenerator, _, hdepths, _⟩ := Config.accepted_in_use hvalid
  have hs' : value? ({} : Config).generator.stepsPerMm = some 1 := by decide +kernel
  have ht' : value? ({} : Config).generator.totalDepth = some (-3) := by decide +kernel
  have hl' : value? ({} : Config).generator.maxDepthPerPass = some 2 := by decide +kernel
  obtain rfl := Option.some.inj (hs.symm.trans hs')
  obtain rfl := Option.some.inj (ht.symm.trans ht')
  obtain rfl := Option.some.inj (hl.symm.trans hl')
  exact ⟨hvalid, hgenerator (by decide +kernel), hdepths (by norm_num)⟩

/-! ### The ends of the range -/

/-- The least double as the resolution: one step is longer than any finite length. -/
def sparseConfig : Config := { generator := { stepsPerMm := 5e-324 } }

/-- Passes so thin that a word holds their number, but no list them. -/
def shavingConfig : Config := { generator := { maxDepthPerPass := 1e-300 } }

theorem accepted_not_in_use :
    (sparseConfig.fault? = none ∧
      Generator.ofParameters sparseConfig.generator.toolpath =
        .error (notPositive "step_mm" Double.infinity)) ∧
    (shavingConfig.fault? = none ∧
      passDepths shavingConfig.generator.totalDepth shavingConfig.generator.maxDepthPerPass =
        .error (.unlistablePasses (wordSize - 1))) := by
  have hsparse : sparseConfig.fault? = none := by decide +kernel
  have hshaving : shavingConfig.fault? = none := by decide +kernel
  have hstep : sparseConfig.generator.step = Double.infinity := by decide +kernel
  have hnot : Scalar.isPositive sparseConfig.generator.step = false := by decide +kernel
  have hfault := Config.toolpath_fault? hsparse
  rw [hnot, if_neg Bool.false_ne_true, hstep] at hfault
  exact ⟨⟨hsparse, Generator.ofParameters_eq_error hfault⟩, hshaving, by decide +kernel⟩

end BasRelief
