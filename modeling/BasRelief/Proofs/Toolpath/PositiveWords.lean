import BasRelief.Proofs.Config.Accepted
import BasRelief.Proofs.Gcode.DoubleWords
import BasRelief.Proofs.Gcode.PlanText
import BasRelief.Proofs.Machine.CutTime
import BasRelief.Proofs.Machine.Segments

/-!
# Words above zero

A configuration is accepted with any feed and any safe height above zero, and a program shows the
feed as a whole number and the height in thousandths. The feed of a cut and the height of a rapid
are therefore above zero on the line only where they are not below the last place that is shown,
and then every cut that moves takes a time above zero.
-/

namespace BasRelief
open Gcode

/-! ### The moves of a plan -/

/-- A cut has the feed of the parameters, and a rapid goes to no height but the safe one. -/
def Motion.KeepsTo {α : Type} (p : ToolpathParameters α) : Motion α → Prop
  | .cut _ feed => feed = some p.cutFeed
  | .rapid target _ => ∀ z ∈ target.z, z = p.safeZ

namespace ToolpathParameters
variable {α : Type} [Scalar α]

omit [Scalar α] in
theorem keepsTo_lift (p : ToolpathParameters α) : p.lift.KeepsTo p := by
  rintro z ⟨⟩
  rfl

theorem keepsTo_surfaceMoves (p : ToolpathParameters α) (g : HeightGrid α) :
    ∀ m ∈ p.surfaceMoves g, m.KeepsTo p := by
  intro m hm
  obtain ⟨row, _, hm⟩ := List.mem_flatMap.mp hm
  obtain hm | hm := List.mem_append.mp hm
  · obtain ⟨col, _, hm⟩ := List.mem_filterMap.mp hm
    obtain ⟨height, _, rfl⟩ := Option.map_eq_some_iff.mp hm
    rfl
  · split at hm
    · obtain rfl := List.mem_singleton.mp hm
      exact p.keepsTo_lift
    · cases hm

theorem keepsTo_passMoves (p : ToolpathParameters α) (mask : ActiveMask) (depth : α) :
    ∀ m ∈ p.passMoves mask depth, m.KeepsTo p := by
  intro m hm
  obtain ⟨stroke, _, rfl⟩ := List.mem_map.mp hm
  cases stroke with
  | approach row col =>
    rintro z ⟨⟩
    rfl
  | carve row col => rfl
  | retract => exact p.keepsTo_lift

end ToolpathParameters

namespace Generator
variable {α : Type} [Scalar α]

theorem keepsTo_sections {p : ToolpathParameters α} {moves : List (Motion α)}
    (h : ∀ m ∈ moves, m.KeepsTo p) : ∀ m ∈ opening p ++ moves ++ closing p, m.KeepsTo p := by
  have horigin : (toOrigin : Motion α).KeepsTo p := by
    rintro z ⟨⟩
  intro m hm
  simp only [opening, closing, List.mem_append, List.mem_cons, List.not_mem_nil, or_false] at hm
  obtain ((rfl | rfl) | hm) | rfl | rfl := hm
  · rintro z ⟨⟩
    rfl
  · exact horigin
  · exact h m hm
  · exact p.keepsTo_lift
  · exact horigin

theorem Makes.keepsTo {g : Generator α} {time : String} {plan : Plan α} (h : g.Makes time plan) :
    ∀ m ∈ plan.motions, m.KeepsTo g.params := by
  cases h with
  | single grid =>
    rw [motions_singlePass]
    exact keepsTo_sections (g.params.keepsTo_surfaceMoves grid)
  | multi h =>
    obtain ⟨depths, _, rfl⟩ := multiPass_eq_ok h
    rw [motions_planOfDepths]
    apply keepsTo_sections
    intro m hm
    obtain ⟨depth, _, hm⟩ := List.mem_flatMap.mp hm
    exact g.params.keepsTo_passMoves _ depth m hm

theorem Makes.safeRapid_mem {g : Generator α} {time : String} {plan : Plan α}
    (h : g.Makes time plan) :
    .rapid (.zOnly g.params.safeZ) (some g.params.rapidFeed) ∈ plan.motions := by
  cases h with
  | single grid =>
    rw [motions_singlePass]
    simp [opening]
  | multi h =>
    obtain ⟨depths, _, rfl⟩ := multiPass_eq_ok h
    rw [motions_planOfDepths]
    simp [opening]

end Generator

/-! ### The lines of a plan -/

namespace Gcode

theorem mem_lines_of_mem_motions {α : Type} [Scalar α] [PrintsValues α] {plan : Plan α}
    (h : ∀ s ∈ plan.steps, s.IsOneLine) {m : Motion α} (hm : m ∈ plan.motions) :
    (motionLine m).toList ∈ Text.lines (program plan).toList := by
  obtain ⟨s, hs, hmotion⟩ := List.mem_filterMap.mp hm
  cases s with
  | comment text => cases hmotion
  | code c => cases hmotion
  | motion _ =>
    obtain rfl := Option.some.inj hmotion
    rw [lines_program h, lines, List.map_map]
    exact List.mem_map.mpr ⟨_, hs, rfl⟩

theorem step_of_mem_lines {α : Type} [Scalar α] [PrintsValues α] {plan : Plan α}
    (h : ∀ s ∈ plan.steps, s.IsOneLine) {line : List Char}
    (hline : line ∈ Text.lines (program plan).toList) :
    ∃ s ∈ plan.steps, line = (stepLine true s).toList ∧
      ∀ number, Token.read? number line = stepToken? s := by
  rw [lines_program h, lines, List.map_map] at hline
  obtain ⟨s, hs, rfl⟩ := List.mem_map.mp hline
  exact ⟨s, hs, rfl, fun number => read?_stepLine number true (h s hs).hasNoLineFeed⟩

theorem motion_of_stepToken {α : Type} [Scalar α] {s : PlanStep α} {t : Token α} {n : Nat}
    (h : stepToken? s = some t) (hn : t.gNumber = some n) (hmove : n ≤ 1) :
    ∃ m, s = .motion m ∧ t = motionToken m ∧ m.gNumber = n := by
  cases s with
  | comment text => cases h
  | code c =>
    obtain rfl := Option.some.inj h
    exact absurd hn (c.gNumber?_ne hmove)
  | motion m =>
    obtain rfl := Option.some.inj h
    exact ⟨m, rfl, rfl, Option.some.inj hn⟩

theorem z_of_mem_motionWords {α : Type} [Scalar α] {m : Motion α} {o : Occurrence}
    (h : o ∈ motionWords m) (hz : o.axis = .z) : ∃ z, m.target.z = some z := by
  have haxis {a : Axis} {v : Option α} (h : o ∈ (coordinate? a v).toList) :
      o.axis = a ∧ ∃ w, v = some w := by
    obtain ⟨w, hw, rfl⟩ := Option.map_eq_some_iff.mp (Option.mem_toList.mp h)
    exact ⟨rfl, w, hw⟩
  simp only [motionWords, List.mem_append] at h
  obtain ((h | h) | h) | h := h
  · cases (haxis h).1.symm.trans hz
  · cases (haxis h).1.symm.trans hz
  · exact (haxis h).2
  · obtain ⟨f, _, rfl⟩ := Option.map_eq_some_iff.mp (Option.mem_toList.mp h)
    cases hz

theorem mem_motionLine_of_z {α : Type} [Scalar α] {m : Motion α} {z : α}
    (h : m.target.z = some z) : 'Z' ∈ (motionLine m).toList := by
  have hword : (⟨.z, (Scalar.fixed 3 (thousandths z)).toList⟩ : Occurrence) ∈ motionWords m := by
    simp [motionWords, coordinate?, h]
  rw [toList_motionLine]
  exact List.mem_append_right _ (List.mem_flatMap.mpr ⟨_, hword, by simp [wordText, Axis.letter]⟩)

theorem z_of_mem_motionLine {α : Type} [Scalar α] [PrintsValues α] {m : Motion α}
    (h : 'Z' ∈ (motionLine m).toList) : ∃ z, m.target.z = some z := by
  -- neither a value nor the word of the move has the letter
  have htext {o : Occurrence} (ho : o ∈ motionWords m) : 'Z' ∉ o.text := by
    have hdigit : ∀ c, Decimal.isDigit c = true → (c != 'Z') = true := by
      intro c hc
      apply bne_iff_ne.mpr
      rintro rfl
      exact absurd hc (by decide)
    intro hz
    have hother := (valueText_of_mem_motionWords ho).forall_mem hdigit (by decide) 'Z' hz
    exact absurd hother (by decide)
  have haxis : ∀ a : Axis, 'Z' = a.letter → a = .z := by
    intro a
    cases a <;> decide
  rw [toList_motionLine, List.mem_append, List.mem_flatMap] at h
  obtain h | ⟨o, ho, h⟩ := h
  · obtain ⟨hword, _, _⟩ | ⟨hword, _, _⟩ := moveWord_cases m <;>
    · rw [hword] at h
      exact absurd h (by decide)
  · simp only [wordText, List.mem_cons] at h
    obtain h | h | h := h
    · exact absurd h (by decide)
    · exact z_of_mem_motionWords ho (haxis o.axis h)
    · exact absurd h (htext ho)

end Gcode

/-! ### The words of cuts and rapids -/

theorem feed_of_cut {p : ToolpathParameters Float} (hp : Scalar.isPositive p.cutFeed = true)
    {m : Motion Float} (hm : m.KeepsTo p) (hcut : m.gNumber = 1) :
    ∃ f r, (motionToken m).words.f = some f ∧ Double.value? f = some r ∧
      (Scalar.less Scalar.zero f = true ↔ Scalar.less 0.5 p.cutFeed = true) ∧
      (Scalar.less 0.5 p.cutFeed = true → 1 / 2 ≤ r) := by
  cases m with
  | rapid target feed => cases hcut
  | cut target feed =>
    obtain rfl := (hm : feed = some p.cutFeed)
    obtain ⟨f, r, hread, hpositive⟩ := readBack_feed_pos hp
    exact ⟨f, r, by rw [words_motionToken]; exact hread, hpositive⟩

theorem height_of_rapid {p : ToolpathParameters Float} (hp : Scalar.isPositive p.safeZ = true)
    {m : Motion Float} (hm : m.KeepsTo p) (hrapid : m.gNumber = 0) {z : Float}
    (hz : m.target.z = some z) :
    (∃ w, (motionToken m).words.z = some w ∧ Scalar.less Scalar.zero w = true) ↔
      Scalar.isFinite (p.safeZ * Scalar.natural 1000) = true ∧
        Scalar.atMost 0.5 (p.safeZ * Scalar.natural 1000) = true := by
  cases m with
  | cut target feed => cases hrapid
  | rapid target feed =>
    have hz' : target.z = some z := hz
    obtain rfl := (hm : ∀ z ∈ target.z, z = p.safeZ) z hz'
    have hword : (motionToken (.rapid target feed)).words.z = readBack 3 (thousandths p.safeZ) := by
      rw [words_motionToken]
      show target.z.bind _ = _
      rw [hz', Option.bind_some]
    rw [hword, readBack_thousandths_pos hp]

/-- Every cut of a program has a feed, and it is read above zero. -/
def FeedsPositive (text : String) : Prop :=
  ∀ line ∈ Text.lines text.toList, ∀ number (t : Token Float),
    Token.read? number line = some t → t.gNumber = some 1 →
      ∃ f, t.words.f = some f ∧ Scalar.less Scalar.zero f = true

/-- Every rapid of a program that names a height has one that is read above zero. -/
def HeightsPositive (text : String) : Prop :=
  ∀ line ∈ Text.lines text.toList, ∀ number (t : Token Float),
    Token.read? number line = some t → t.gNumber = some 0 → 'Z' ∈ line →
      ∃ z, t.words.z = some z ∧ Scalar.less Scalar.zero z = true

/-- A feed of at most a half is shown as zero by every cut. -/
theorem not_feedsPositive {g : Generator Float} {time : String} {plan : Plan Float}
    (hplan : g.Makes time plan) (htime : Text.IsLine time.toList)
    (hp : Scalar.isPositive g.params.cutFeed = true)
    (hslow : Scalar.less 0.5 g.params.cutFeed = false) {m : Motion Float}
    (hm : m ∈ plan.motions) (hcut : m.gNumber = 1) : ¬ FeedsPositive (program plan) := by
  intro hall
  have hline := mem_lines_of_mem_motions (hplan.isOneLine htime) hm
  obtain ⟨f, hword, hpositive⟩ :=
    hall _ hline 1 (motionToken m) (read?_motionLine 1 m) (congrArg some hcut)
  obtain ⟨f', _, hword', _, hshown, _⟩ := feed_of_cut hp (hplan.keepsTo m hm) hcut
  obtain rfl := Option.some.inj (hword.symm.trans hword')
  exact Bool.false_ne_true (hslow.symm.trans (hshown.mp hpositive))

/-- A safe height below half a thousandth, or one too large to be counted in thousandths, is not
read above zero. -/
theorem not_heightsPositive {g : Generator Float} {time : String} {plan : Plan Float}
    (hplan : g.Makes time plan) (htime : Text.IsLine time.toList)
    (hp : Scalar.isPositive g.params.safeZ = true)
    (hnot : ¬ (Scalar.isFinite (g.params.safeZ * Scalar.natural 1000) = true ∧
      Scalar.atMost 0.5 (g.params.safeZ * Scalar.natural 1000) = true)) :
    ¬ HeightsPositive (program plan) := by
  intro hall
  have hm := hplan.safeRapid_mem
  have hline := mem_lines_of_mem_motions (hplan.isOneLine htime) hm
  have hpositive := hall _ hline 1 _ (read?_motionLine 1 _) rfl (mem_motionLine_of_z rfl)
  exact hnot ((height_of_rapid hp (hplan.keepsTo _ hm) rfl rfl).mp hpositive)

/-! ### The times of cuts -/

theorem isThousandth_getD {v : Float} (h : IsThousandth v) (target : Option Float) :
    IsThousandth ((target.bind fun x => readBack 3 (thousandths x)).getD v) := by
  cases target with
  | none => exact h
  | some x =>
    rw [Option.bind_some]
    cases hread : readBack 3 (thousandths x) with
    | none => exact h
    | some w => exact value?_of_readBack hread

theorem ofThousandths_after {s : MachineState Float} (h : s.position.OfThousandths)
    {step : PlanStep Float} {t : Token Float} (ht : stepToken? step = some t) :
    (s.after t.words).position.OfThousandths := by
  cases step with
  | comment text => cases ht
  | code c =>
    obtain rfl := Option.some.inj ht
    exact h
  | motion m =>
    obtain rfl := Option.some.inj ht
    show ((motionToken m).words.move s.position).OfThousandths
    rw [words_motionToken]
    exact ⟨isThousandth_getD h.x m.target.x, isThousandth_getD h.y m.target.y,
      isThousandth_getD h.z m.target.z⟩

theorem time_pos_of_segment {p : ToolpathParameters Float}
    (hp : Scalar.isPositive p.cutFeed = true) (hfeed : Scalar.less 0.5 p.cutFeed = true)
    {tolerance : Float} {b : Rat} (htolerance : Double.value? tolerance = some b) (hb : 0 ≤ b)
    {s : MachineState Float} (hs : s.position.OfThousandths) {step : PlanStep Float}
    (hstep : ∀ m, step = .motion m → m.KeepsTo p) {t : Token Float}
    (ht : stepToken? step = some t) {number : Nat}
    (hcut : (s.segment tolerance number t).motion = some .cut)
    (hmoved : (s.segment tolerance number t).moved = true) :
    Scalar.less Scalar.zero (s.segment tolerance number t).time = true := by
  have hnext := ofThousandths_after hs ht
  cases step with
  | comment text => cases ht
  | code c =>
    obtain rfl := Option.some.inj ht
    have hcode : ∀ c : MachineCode, (codeToken c : Token Float).motion ≠ some .cut := by
      intro c
      cases c <;> decide
    exact absurd hcut (hcode c)
  | motion m =>
    obtain rfl := Option.some.inj ht
    have hkind : m.gNumber = 1 := by
      cases m with
      | rapid target feed => cases hcut
      | cut target feed => rfl
    obtain ⟨f, r, hword, hvalue, hshown, hlarge⟩ := feed_of_cut hp (hstep m rfl) hkind
    have hafter : (s.after (motionToken m).words).feed = f := by
      show (motionToken m).words.f.getD s.feed = f
      rw [hword, Option.getD_some]
    have htime := time_pos hs hnext htolerance hb hmoved hvalue (hlarge hfeed)
    show Scalar.less Scalar.zero (MachineState.cutTime _ _ _ _) = true
    rw [hafter, MachineState.cutTime, if_pos ⟨hcut, hmoved, hshown.mpr hfeed⟩]
    exact htime

theorem time_pos_of_mem_segments {p : ToolpathParameters Float}
    (hp : Scalar.isPositive p.cutFeed = true) (hfeed : Scalar.less 0.5 p.cutFeed = true)
    {tolerance : Float} {b : Rat} (htolerance : Double.value? tolerance = some b) (hb : 0 ≤ b)
    {steps : List (PlanStep Float)} (hline : ∀ step ∈ steps, step.HasNoLineFeed)
    (hkeeps : ∀ step ∈ steps, ∀ m, step = .motion m → m.KeepsTo p)
    {s : MachineState Float} (hs : s.position.OfThousandths) (first : Nat) :
    ∀ seg ∈ s.segments tolerance first (steps.map fun step => (stepLine true step).toList),
      seg.motion = some .cut → seg.moved = true → Scalar.less Scalar.zero seg.time = true := by
  -- along the steps the machine stays at thousandths, whatever it stands at
  induction steps generalizing s first with
  | nil =>
    intro seg hseg
    cases hseg
  | cons step rest ih =>
    have hread := read?_stepLine first true (hline step List.mem_cons_self)
    have hline' : ∀ t ∈ rest, t.HasNoLineFeed := fun t ht => hline t (List.mem_cons_of_mem _ ht)
    have hkeeps' : ∀ t ∈ rest, ∀ m, t = .motion m → m.KeepsTo p :=
      fun t ht => hkeeps t (List.mem_cons_of_mem _ ht)
    rw [List.map_cons, MachineState.segments, hread]
    cases htoken : (stepToken? step : Option (Token Float)) with
    | none => exact ih hline' hkeeps' hs (first + 1)
    | some t =>
      intro seg hseg hcut hmoved
      obtain rfl | hseg := List.mem_cons.mp hseg
      · exact time_pos_of_segment hp hfeed htolerance hb hs (hkeeps step List.mem_cons_self) htoken
          hcut hmoved
      · exact ih hline' hkeeps' (ofThousandths_after hs htoken) (first + 1) seg hseg hcut hmoved

/-! ### The program of an accepted configuration -/

/-- In the program of an accepted configuration the feed of every cut is shown above zero exactly
where it is above a half, and every height of a rapid exactly where a thousand times the safe height
is finite and not below a half. With such a feed every cut that the machine counts as moved takes a
time above zero. -/
theorem printed_words_positive {config : Config} (hvalid : config.fault? = none)
    {g : Generator Float} (hg : Generator.ofParameters config.generator.toolpath = .ok g)
    {time : String} (htime : Text.IsLine time.toList) {plan : Plan Float}
    (hplan : g.Makes time plan) :
    (∀ line ∈ Text.lines (program plan).toList, ∀ number (t : Token Float),
        Token.read? number line = some t →
      (t.gNumber = some 1 → ∃ f, t.words.f = some f ∧
        (Scalar.less Scalar.zero f = true ↔ Scalar.less 0.5 config.generator.cutFeed = true)) ∧
      (t.gNumber = some 0 → 'Z' ∈ line →
        ((∃ z, t.words.z = some z ∧ Scalar.less Scalar.zero z = true) ↔
          Scalar.isFinite (config.generator.safeZ * Scalar.natural 1000) = true ∧
            Scalar.atMost 0.5 (config.generator.safeZ * Scalar.natural 1000) = true))) ∧
    (Scalar.less 0.5 config.generator.cutFeed = true →
      ∀ seg ∈ MachineState.start.segments config.analyzer.floatTolerance 1
          (Text.lines (program plan).toList),
        seg.motion = some .cut → seg.moved = true →
          Scalar.less Scalar.zero seg.time = true) := by
  have hlines := hplan.isOneLine htime
  have hkeeps : ∀ step ∈ plan.steps, ∀ m, step = .motion m → m.KeepsTo g.params := by
    rintro _ hstep m rfl
    exact hplan.keepsTo m (List.mem_filterMap.mpr ⟨_, hstep, rfl⟩)
  have hparams := Generator.params_of_ofParameters hg
  have hcut := Config.cutFeed_pos hvalid
  have hsafe := Config.safeZ_pos hvalid
  constructor
  case left =>
    intro line hline number t ht
    obtain ⟨step, hstep, rfl, hread⟩ := step_of_mem_lines hlines hline
    rw [hread number] at ht
    constructor
    · intro hnumber
      obtain ⟨m, rfl, rfl, hm⟩ := motion_of_stepToken ht hnumber le_rfl
      obtain ⟨f, r, hword, _, hshown, _⟩ :=
        feed_of_cut (p := g.params) (by rwa [hparams]) (hkeeps _ hstep m rfl) hm
      rw [hparams] at hshown
      exact ⟨f, hword, hshown⟩
    · intro hnumber hz
      obtain ⟨m, rfl, rfl, hm⟩ := motion_of_stepToken ht hnumber (Nat.zero_le 1)
      obtain ⟨z, hz⟩ := z_of_mem_motionLine hz
      have hshown := height_of_rapid (p := g.params) (by rwa [hparams]) (hkeeps _ hstep m rfl) hm hz
      rwa [hparams] at hshown
  case right =>
    intro hfeed
    obtain ⟨b, hb, hnonneg⟩ := Config.floatTolerance_nonneg hvalid
    rw [lines_program hlines, lines, List.map_map]
    exact time_pos_of_mem_segments (p := g.params) (by rwa [hparams]) (by rwa [hparams]) hb hnonneg
      (fun s hs => (hlines s hs).hasNoLineFeed) hkeeps Position.ofThousandths_origin 1

/-! ### Small feeds and heights -/

def strip : HeightGrid Float := ⟨1, 2, 1, #[0.5, 1]⟩

def stamp : String := "2026-01-01 00:00:00 UTC"

theorem isLine_stamp : Text.IsLine stamp.toList := by
  decide

/-- The feed and the height are just large enough to be shown. -/
def fineConfig : Config := { generator := { safeZ := 0.0005, cutFeed := 0.6 } }

def fineCarver : Generator Float := ⟨fineConfig.generator.toolpath, by decide +kernel⟩

theorem fineConfig_words_positive :
    fineConfig.fault? = none ∧
    Generator.ofParameters fineConfig.generator.toolpath = .ok fineCarver ∧
    FeedsPositive (program (fineCarver.singlePass stamp strip)) ∧
    HeightsPositive (program (fineCarver.singlePass stamp strip)) ∧
    ∀ seg ∈ MachineState.start.segments fineConfig.analyzer.floatTolerance 1
        (Text.lines (program (fineCarver.singlePass stamp strip)).toList),
      seg.motion = some .cut → seg.moved = true → Scalar.less Scalar.zero seg.time = true := by
  have hvalid : fineConfig.fault? = none := by decide +kernel
  have hmade := Generator.ofParameters_eq_ok fineCarver.accepted
  have hfeed : Scalar.less 0.5 fineConfig.generator.cutFeed = true := by decide +kernel
  have hheight : Scalar.isFinite (fineConfig.generator.safeZ * Scalar.natural 1000) = true ∧
      Scalar.atMost 0.5 (fineConfig.generator.safeZ * Scalar.natural 1000) = true := by
    decide +kernel
  obtain ⟨hwords, htimes⟩ := printed_words_positive hvalid hmade isLine_stamp (.single strip)
  refine ⟨hvalid, hmade, ?_, ?_, htimes hfeed⟩
  · intro line hline number t ht hnumber
    obtain ⟨f, hword, hshown⟩ := (hwords line hline number t ht).1 hnumber
    exact ⟨f, hword, hshown.mpr hfeed⟩
  · intro line hline number t ht hnumber hz
    exact ((hwords line hline number t ht).2 hnumber hz).mpr hheight

def slowConfig : Config := { generator := { cutFeed := 0.4 } }

def slowCarver : Generator Float := ⟨slowConfig.generator.toolpath, by decide +kernel⟩

def lowConfig : Config := { generator := { safeZ := 0.0004 } }

def lowCarver : Generator Float := ⟨lowConfig.generator.toolpath, by decide +kernel⟩

def tallConfig : Config := { generator := { safeZ := 1e306 } }

def tallCarver : Generator Float := ⟨tallConfig.generator.toolpath, by decide +kernel⟩

theorem accepted_words_not_positive :
    (slowConfig.fault? = none ∧
      Generator.ofParameters slowConfig.generator.toolpath = .ok slowCarver ∧
      ¬ FeedsPositive (program (slowCarver.singlePass stamp strip))) ∧
    (lowConfig.fault? = none ∧
      Generator.ofParameters lowConfig.generator.toolpath = .ok lowCarver ∧
      ¬ HeightsPositive (program (lowCarver.singlePass stamp strip))) ∧
    (tallConfig.fault? = none ∧
      Generator.ofParameters tallConfig.generator.toolpath = .ok tallCarver ∧
      ¬ HeightsPositive (program (tallCarver.singlePass stamp strip))) := by
  have hslow : slowConfig.fault? = none := by decide +kernel
  have hlow : lowConfig.fault? = none := by decide +kernel
  have htall : tallConfig.fault? = none := by decide +kernel
  refine ⟨⟨hslow, Generator.ofParameters_eq_ok slowCarver.accepted, ?_⟩,
    ⟨hlow, Generator.ofParameters_eq_ok lowCarver.accepted, ?_⟩,
    ⟨htall, Generator.ofParameters_eq_ok tallCarver.accepted, ?_⟩⟩
  · have hcut : slowCarver.params.cutAt 0 0 (-0.5) ∈ slowCarver.params.surfaceMoves strip := by
      decide +kernel
    have hm : slowCarver.params.cutAt 0 0 (-0.5) ∈ (slowCarver.singlePass stamp strip).motions := by
      rw [Generator.motions_singlePass]
      exact List.mem_append_left _ (List.mem_append_right _ hcut)
    exact not_feedsPositive (.single strip) isLine_stamp (Config.cutFeed_pos hslow)
      (by decide +kernel) hm rfl
  · exact not_heightsPositive (.single strip) isLine_stamp (Config.safeZ_pos hlow)
      (by decide +kernel)
  · exact not_heightsPositive (.single strip) isLine_stamp (Config.safeZ_pos htall)
      (by decide +kernel)

end BasRelief
