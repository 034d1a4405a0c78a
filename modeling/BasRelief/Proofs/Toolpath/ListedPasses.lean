import BasRelief.Proofs.Config.Accepted
import BasRelief.Proofs.Toolpath.Sections
import BasRelief.Proofs.Toolpath.Slices

/-!
# Passes that can be listed

The number of the passes is a quotient of doubles, and nothing bounds it. It is counted exactly as
long as the quotient of the two depths is rounded to less than `2 ^ 60`; from there on no list holds
the passes, and there is no plan.
-/

namespace BasRelief
open Double

namespace Double

theorem passDepths_unlisted {total limit : Float} {t l : Rat} (htotal : value? total = some t)
    (hlimit : value? limit = some l) (ht : t < 0) (hl : 0 < l)
    (hcount : 2 ^ 60 - 2 ^ 6 ≤ -t / l) :
    passDepths total limit = .error (.unlistablePasses (passCount (-total) limit)) := by
  have hpositive : Scalar.isPositive limit = true := (isPositive_iff limit).mpr ⟨l, hlimit, hl⟩
  have hfinite : Scalar.isFinite total = true := (isFinite_iff total).mpr ⟨t, htotal⟩
  have hbelow : Scalar.atMost Scalar.zero total = false :=
    Bool.eq_false_iff.mpr (mt (atMost_iff value?_zero htotal).mp (not_le.mpr ht))
  have hmany := le_passCount (atLeast_wholePasses (value?_neg htotal) hlimit hl hcount)
  have hlongest : longestList = 2 ^ 60 - 1 := rfl
  have hcounted : sliceCount total limit = passCount (-total) limit := by
    rw [sliceCount, hbelow]
    rfl
  rw [passDepths_of_fit hpositive hfinite, length_slices, hcounted, if_pos (by omega)]

end Double

namespace Generator

/-- Below the surface a plan of several passes is made exactly if they can be listed. Then their
number is the whole number that the doubles give; otherwise that one is at least `2 ^ 60`, or
infinite. -/
theorem multiPass_listed_iff (g : Generator Float) (time : String) (mask : ActiveMask)
    {total : Float} {t l : Rat} (htotal : value? total = some t)
    (hlimit : value? g.params.maxDepthPerPass = some l) (ht : t < 0) :
    ((∃ plan, g.multiPass time mask total = .ok plan) ↔ -t / l < 2 ^ 60 - 2 ^ 6) ∧
    (-t / l < 2 ^ 60 - 2 ^ 6 → ∃ n : Int,
      value? (wholePasses (-total) g.params.maxDepthPerPass) = some (n : Rat) ∧ n < 2 ^ 60 ∧
        (passCount (-total) g.params.maxDepthPerPass : Int) = max n 1) ∧
    (2 ^ 60 - 2 ^ 6 ≤ -t / l →
      AtLeast (2 ^ 60) (wholePasses (-total) g.params.maxDepthPerPass) ∧
        g.multiPass time mask total =
          .error (.unlistablePasses (passCount (-total) g.params.maxDepthPerPass))) := by
  have hl : 0 < l := by
    obtain ⟨b, hb, hpos⟩ := (isPositive_iff _).mp g.limit_pos
    obtain rfl := Option.some.inj (hlimit.symm.trans hb)
    exact hpos
  have hunlisted (hcount : 2 ^ 60 - 2 ^ 6 ≤ -t / l) : g.multiPass time mask total =
      .error (.unlistablePasses (passCount (-total) g.params.maxDepthPerPass)) := by
    rw [multiPass, passDepths_unlisted htotal hlimit ht hl hcount]
    rfl
  refine ⟨⟨?bounded, ?listed⟩, ?counted, ?large⟩
  case bounded =>
    rintro ⟨plan, hplan⟩
    by_contra hcount
    rw [hunlisted (not_lt.mp hcount)] at hplan
    cases hplan
  case listed =>
    intro hcount
    obtain ⟨depths, hdepths⟩ := passDepths_isOk htotal hlimit hl hcount
    rw [multiPass, hdepths]
    exact ⟨_, rfl⟩
  case counted =>
    intro hcount
    obtain ⟨n, hn, hle⟩ :=
      exists_wholePasses (value?_neg htotal) hlimit (neg_nonneg.mpr ht.le) hl hcount
    exact ⟨n, hn, by omega, passCount_of_wholePasses hn (by omega)⟩
  case large =>
    intro hcount
    exact ⟨atLeast_wholePasses (value?_neg htotal) hlimit hl hcount, hunlisted hcount⟩

theorem engraver_passes_listed :
    value? (-3 : Float) = some (-3) ∧ value? engraver.params.maxDepthPerPass = some 2 ∧
      (-3 : Rat) < 0 ∧ ∃ plan, engraver.multiPass "" engraving (-3) = .ok plan := by
  have htotal : value? (-3 : Float) = some (-3) := by decide +kernel
  have hlimit : value? engraver.params.maxDepthPerPass = some 2 := by decide +kernel
  have hplan := (engraver.multiPass_listed_iff "" engraving htotal hlimit (by norm_num)).1
  exact ⟨htotal, hlimit, by norm_num, hplan.mpr (by norm_num)⟩

/-- Passes so thin that not even a double holds their number. -/
def vanishingConfig : Config := { generator := { totalDepth := -1e300, maxDepthPerPass := 1e-300 } }

/-- An accepted configuration whose number of passes is infinite, cut to the greatest word. -/
theorem vanishing_passes_unlisted :
    vanishingConfig.fault? = none ∧
    wholePasses (-vanishingConfig.generator.totalDepth)
      vanishingConfig.generator.maxDepthPerPass = Double.infinity ∧
    ∃ g, ofParameters vanishingConfig.generator.toolpath = .ok g ∧
      g.multiPass "" ⟨1, 1, #[true]⟩ vanishingConfig.generator.totalDepth =
        .error (.unlistablePasses (wordSize - 1)) := by
  have hvalid : vanishingConfig.fault? = none := by decide +kernel
  have hfault : vanishingConfig.generator.toolpath.fault? = none := by decide +kernel
  have hdepths : passDepths vanishingConfig.generator.totalDepth
      vanishingConfig.generator.maxDepthPerPass = .error (.unlistablePasses (wordSize - 1)) := by
    decide +kernel
  refine ⟨hvalid, by decide +kernel, ⟨_, hfault⟩, ofParameters_eq_ok hfault, ?_⟩
  show (passDepths vanishingConfig.generator.totalDepth
    vanishingConfig.generator.maxDepthPerPass).map _ = _
  rw [hdepths]
  rfl

end Generator
end BasRelief
