import BasRelief.Config.Codec
import BasRelief.Proofs.Config.Accepted
import BasRelief.Proofs.Document.ShownValues
import BasRelief.Proofs.Results

/-!
# Configurations out of documents

The sections of a configuration are decoded into that configuration, with each of its doubles as the
document shows it. So far as a document keeps the doubles, it keeps the configuration.
-/

namespace BasRelief
open Document

/-! ### Doubles of a configuration -/

section
variable {ε : Type}

namespace GeneratorSettings

def doubles (g : GeneratorSettings) : List Float :=
  [g.stepsPerMm, g.maxDepthPerPass, g.totalDepth, g.reliefDepth, g.safeZ, g.rapidFeed, g.cutFeed,
   g.toolDiameter]

/-- The settings with every double replaced, or the first error on the way. -/
def mapDoubles (f : Float → Except ε Float) (g : GeneratorSettings) :
    Except ε GeneratorSettings := do
  return {
    stepsPerMm := ← f g.stepsPerMm
    threshold := g.threshold
    maxDepthPerPass := ← f g.maxDepthPerPass
    totalDepth := ← f g.totalDepth
    reliefDepth := ← f g.reliefDepth
    safeZ := ← f g.safeZ
    rapidFeed := ← f g.rapidFeed
    cutFeed := ← f g.cutFeed
    toolDiameter := ← f g.toolDiameter }

end GeneratorSettings

namespace AnalyzerSettings

def doubles (a : AnalyzerSettings) : List Float := [a.floatTolerance]

def mapDoubles (f : Float → Except ε Float) (a : AnalyzerSettings) :
    Except ε AnalyzerSettings := do
  return { floatTolerance := ← f a.floatTolerance, trajectoryLimit := a.trajectoryLimit }

end AnalyzerSettings

namespace Config

def doubles (c : Config) : List Float := c.generator.doubles ++ c.analyzer.doubles

def mapDoubles (f : Float → Except ε Float) (c : Config) : Except ε Config := do
  return {
    generator := ← c.generator.mapDoubles f
    analyzer := ← c.analyzer.mapDoubles f
    display := c.display
    log := c.log }

end Config

theorem GeneratorSettings.mapDoubles_eq_self {f : Float → Except ε Float} {g : GeneratorSettings} :
    g.mapDoubles f = .ok g ↔ ∀ x ∈ g.doubles, f x = .ok x := by
  obtain ⟨_, _, _, _, _, _, _, _, _⟩ := g
  simp only [doubles, List.forall_mem_cons, mapDoubles, bind_eq_ok_iff]
  constructor
  · rintro ⟨a, ha, b, hb, c, hc, d, hd, e, he, r, hr, s, hs, t, ht, h⟩
    cases h
    exact ⟨ha, hb, hc, hd, he, hr, hs, ht, fun _ h => by cases h⟩
  · rintro ⟨ha, hb, hc, hd, he, hr, hs, ht, -⟩
    exact ⟨_, ha, _, hb, _, hc, _, hd, _, he, _, hr, _, hs, _, ht, rfl⟩

theorem AnalyzerSettings.mapDoubles_eq_self {f : Float → Except ε Float} {a : AnalyzerSettings} :
    a.mapDoubles f = .ok a ↔ ∀ x ∈ a.doubles, f x = .ok x := by
  obtain ⟨_, _⟩ := a
  simp only [doubles, List.forall_mem_cons, mapDoubles, bind_eq_ok_iff]
  constructor
  · rintro ⟨b, hb, h⟩
    cases h
    exact ⟨hb, fun _ h => by cases h⟩
  · rintro ⟨hb, -⟩
    exact ⟨_, hb, rfl⟩

/-- A configuration is unchanged just when each of its doubles is. -/
theorem Config.mapDoubles_eq_self {f : Float → Except ε Float} {c : Config} :
    c.mapDoubles f = .ok c ↔ ∀ x ∈ c.doubles, f x = .ok x := by
  rw [doubles, List.forall_mem_append, ← GeneratorSettings.mapDoubles_eq_self,
    ← AnalyzerSettings.mapDoubles_eq_self]
  obtain ⟨_, _, _, _⟩ := c
  simp only [mapDoubles, bind_eq_ok_iff]
  constructor
  · rintro ⟨g, hg, a, ha, h⟩
    cases h
    exact ⟨hg, ha⟩
  · rintro ⟨hg, ha⟩
    exact ⟨_, hg, _, ha, rfl⟩

end

/-! ### Sections of a document -/

section
variable {shown : Value → Value} (h : KeepsRest shown) (d : Dialect) (closed : Bool)
include h

theorem LogLevel.ofValue_shown (l : LogLevel) : ofValue d (shown l.toValue) = .ok l := by
  rw [LogLevel.toValue, h.text]
  cases l <;> rfl

theorem GeneratorSettings.ofValue_shownTable (g : GeneratorSettings) :
    ofValue d (shownTable closed shown g.entries) = g.mapDoubles (shownDouble d shown) := by
  have hkeys : g.entries.map Prod.fst = fields.map Field.key := rfl
  have hrecord : Record.of fields d (shownTable closed shown g.entries) =
      .ok (shownRecord shown g.entries) :=
    of_shownTable (by rw [hkeys]; decide) (by rw [hkeys]; decide) d closed shown
  unfold ofValue
  rw [hrecord]
  show Except.bind _ _ = _
  simp only [Except.bind, orDefault_shown g.entries "passos_por_mm" rfl,
    orDefault_shown g.entries "limiar_preto_branco" rfl,
    orDefault_shown g.entries "profundidade_max_corte" rfl,
    orDefault_shown g.entries "profundidade_total" rfl,
    orDefault_shown g.entries "profundidade_relevo" rfl,
    orDefault_shown g.entries "altura_seguranca_z" rfl,
    orDefault_shown g.entries "velocidade_f_rapida" rfl,
    orDefault_shown g.entries "velocidade_f_corte" rfl,
    orDefault_shown g.entries "diametro_ferramenta" rfl, octet_shown h]
  rfl

theorem AnalyzerSettings.ofValue_shownTable {a : AnalyzerSettings}
    (ha : a.trajectoryLimit < wordSize) :
    ofValue d (shownTable closed shown a.entries) = a.mapDoubles (shownDouble d shown) := by
  have hkeys : a.entries.map Prod.fst = fields.map Field.key := rfl
  have hrecord : Record.of fields d (shownTable closed shown a.entries) =
      .ok (shownRecord shown a.entries) :=
    of_shownTable (by rw [hkeys]; decide) (by rw [hkeys]; decide) d closed shown
  unfold ofValue
  rw [hrecord]
  show Except.bind _ _ = _
  simp only [Except.bind, orDefault_shown a.entries "tolerancia_flutuante" rfl,
    orDefault_shown a.entries "limite_trajetoria" rfl, natural_shown h d ha]
  rfl

theorem DisplaySettings.ofValue_shownTable (s : DisplaySettings) :
    ofValue d (shownTable closed shown s.entries) = .ok s := by
  have hkeys : s.entries.map Prod.fst = fields.map Field.key := rfl
  have hrecord : Record.of fields d (shownTable closed shown s.entries) =
      .ok (shownRecord shown s.entries) :=
    of_shownTable (by rw [hkeys]; decide) (by rw [hkeys]; decide) d closed shown
  unfold ofValue
  rw [hrecord]
  show Except.bind _ _ = _
  simp only [Except.bind, orDefault_shown s.entries "cor_g0" rfl,
    orDefault_shown s.entries "cor_g1" rfl, text_shown h]
  rfl

theorem LogSettings.ofValue_shownTable (s : LogSettings) :
    ofValue d (shownTable closed shown s.entries) = .ok s := by
  have hown : Record.AreOwn fields (s.entries.map Prod.fst) ∧ (s.entries.map Prod.fst).Nodup := by
    obtain ⟨level, file⟩ := s
    cases file with
    | none => show Record.AreOwn fields ["nivel"] ∧ ["nivel"].Nodup; decide
    | some file =>
      show Record.AreOwn fields ["nivel", "arquivo"] ∧ ["nivel", "arquivo"].Nodup
      decide
  have hrecord : Record.of fields d (shownTable closed shown s.entries) =
      .ok (shownRecord shown s.entries) := of_shownTable hown.1 hown.2 d closed shown
  have hlevel : (shownRecord shown s.entries).orDefault d "nivel" LogLevel.info LogLevel.ofValue =
      .ok s.level := by
    rw [orDefault_shown s.entries "nivel" (v := s.level.toValue) rfl, LogLevel.ofValue_shown h]
  have hfile : (shownRecord shown s.entries).orDefault d "arquivo" none (.option .text) =
      .ok s.file := by
    obtain ⟨level, file⟩ := s
    cases file with
    | none => rfl
    | some file =>
      rw [orDefault_shown _ "arquivo" (v := .text file) rfl, h.text]
      rfl
  unfold ofValue
  rw [hrecord]
  show Except.bind _ _ = _
  simp only [Except.bind, hlevel, hfile]
  rfl

/-- The sections of a document as a table of tables. -/
def shownSections (closed : Bool) (shown : Value → Value)
    (sections : List (String × List (String × Value))) : Value :=
  shownTable closed id (sections.map fun s => (s.1, shownTable closed shown s.2))

/-- The configuration in a document is the one that was written, with each of its doubles as the
document shows it. -/
theorem Config.ofValue_shownSections {c : Config} (hc : c.analyzer.trajectoryLimit < wordSize) :
    ofValue d (shownSections closed shown c.sections) = c.mapDoubles (shownDouble d shown) := by
  let tables := c.sections.map fun s => (s.1, shownTable closed shown s.2)
  have hkeys : tables.map Prod.fst = fields.map Field.key := rfl
  have hrecord : Record.of fields d (shownTable closed id tables) = .ok (shownRecord id tables) :=
    of_shownTable (by rw [hkeys]; decide) (by rw [hkeys]; decide) d closed id
  have hfind (key : String) {v : Value} (hlookup : tables.lookup key = some v) {α : Type}
      (default : α) (decode : Decoder α) :
      (shownRecord id tables).orDefault d key default decode = decode d v :=
    orDefault_shown tables key hlookup d default decode
  unfold ofValue
  rw [shownSections, hrecord]
  show Except.bind _ _ = _
  simp only [Except.bind, hfind "gerador" rfl, hfind "analisador" rfl,
    hfind "visualizacao" rfl, hfind "log" rfl,
    GeneratorSettings.ofValue_shownTable h, AnalyzerSettings.ofValue_shownTable h d closed hc,
    DisplaySettings.ofValue_shownTable h, LogSettings.ofValue_shownTable h]
  rfl

end

/-! ### Accepted configurations -/

namespace Config

theorem doubles_finite {c : Config} (h : c.fault? = none) :
    ∀ x ∈ c.doubles, ∃ a, Double.value? x = some a := by
  have hpositive (key : String) {x : Float} (hrule : positiveRule key x ∈ c.rules) :
      ∃ a, Double.value? x = some a := by
    obtain ⟨a, ha, _⟩ := (Double.isPositive_iff x).mp (holds_of_fault?_eq_none h hrule)
    exact ⟨a, ha⟩
  have hnonNegative (key : String) {x : Float} (hrule : nonNegativeRule key x ∈ c.rules) :
      ∃ a, Double.value? x = some a := by
    have hholds := holds_of_fault?_eq_none h hrule
    exact (Double.isFinite_iff x).mp (Bool.and_eq_true_iff.mp hholds).1
  have hdepth : (⟨"profundidade_total", c.generator.totalDepth.isFinite, "must be finite"⟩ : Rule) ∈
      c.rules := by simp [rules]
  intro x hx
  simp only [doubles, GeneratorSettings.doubles, AnalyzerSettings.doubles, List.cons_append,
    List.nil_append, List.mem_cons, List.not_mem_nil, or_false] at hx
  obtain rfl | rfl | rfl | rfl | rfl | rfl | rfl | rfl | rfl := hx
  · exact hpositive "passos_por_mm" (by simp [rules])
  · exact hpositive "profundidade_max_corte" (by simp [rules])
  · exact (Double.isFinite_iff _).mp (holds_of_fault?_eq_none h hdepth)
  · exact hnonNegative "profundidade_relevo" (by simp [rules])
  · exact hpositive "altura_seguranca_z" (by simp [rules])
  · exact hpositive "velocidade_f_rapida" (by simp [rules])
  · exact hpositive "velocidade_f_corte" (by simp [rules])
  · exact hnonNegative "diametro_ferramenta" (by simp [rules])
  · exact hnonNegative "tolerancia_flutuante" (by simp [rules])

end Config
end BasRelief
