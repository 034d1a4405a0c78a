import BasRelief.Config.Settings
import BasRelief.Document.Record

/-!
# Settings as document values

Every setting has a key of its own and, except for the section of the log, an English key that
means the same. A setting that is not given keeps its default.
-/

namespace BasRelief
open Document

namespace LogLevel

/-- The words for the levels in a document: lower case or upper case, but no mixture. -/
def words : List (String × LogLevel) :=
  [("trace", trace), ("TRACE", trace), ("debug", debug), ("DEBUG", debug), ("info", info),
   ("INFO", info), ("warn", warn), ("WARN", warn), ("WARNING", warn), ("warning", warn),
   ("error", error), ("ERROR", error)]

def toValue (l : LogLevel) : Value := .text l.name

def ofValue : Decoder LogLevel := Decoder.choice words

end LogLevel

namespace GeneratorSettings

def fields : List Field :=
  [⟨"passos_por_mm", some "steps_per_mm"⟩,
   ⟨"limiar_preto_branco", some "threshold"⟩,
   ⟨"profundidade_max_corte", some "max_depth_per_pass"⟩,
   ⟨"profundidade_total", some "total_depth"⟩,
   ⟨"profundidade_relevo", some "relief_depth"⟩,
   ⟨"altura_seguranca_z", some "safe_z"⟩,
   ⟨"velocidade_f_rapida", some "rapid_feed"⟩,
   ⟨"velocidade_f_corte", some "cut_feed"⟩,
   ⟨"diametro_ferramenta", some "tool_diameter"⟩]

def entries (g : GeneratorSettings) : List (String × Value) :=
  [("passos_por_mm", .float g.stepsPerMm),
   ("limiar_preto_branco", .natural g.threshold.toNat),
   ("profundidade_max_corte", .float g.maxDepthPerPass),
   ("profundidade_total", .float g.totalDepth),
   ("profundidade_relevo", .float g.reliefDepth),
   ("altura_seguranca_z", .float g.safeZ),
   ("velocidade_f_rapida", .float g.rapidFeed),
   ("velocidade_f_corte", .float g.cutFeed),
   ("diametro_ferramenta", .float g.toolDiameter)]

def ofValue : Decoder GeneratorSettings := fun d v => do
  let r ← Record.of fields d v
  let base : GeneratorSettings := {}
  return {
    stepsPerMm := ← r.orDefault d "passos_por_mm" base.stepsPerMm .float
    threshold := ← r.orDefault d "limiar_preto_branco" base.threshold .octet
    maxDepthPerPass := ← r.orDefault d "profundidade_max_corte" base.maxDepthPerPass .float
    totalDepth := ← r.orDefault d "profundidade_total" base.totalDepth .float
    reliefDepth := ← r.orDefault d "profundidade_relevo" base.reliefDepth .float
    safeZ := ← r.orDefault d "altura_seguranca_z" base.safeZ .float
    rapidFeed := ← r.orDefault d "velocidade_f_rapida" base.rapidFeed .float
    cutFeed := ← r.orDefault d "velocidade_f_corte" base.cutFeed .float
    toolDiameter := ← r.orDefault d "diametro_ferramenta" base.toolDiameter .float }

end GeneratorSettings

namespace AnalyzerSettings

def fields : List Field :=
  [⟨"tolerancia_flutuante", some "float_tolerance"⟩, ⟨"limite_trajetoria", some "trajectory_limit"⟩]

def entries (a : AnalyzerSettings) : List (String × Value) :=
  [("tolerancia_flutuante", .float a.floatTolerance),
   ("limite_trajetoria", .natural a.trajectoryLimit)]

def ofValue : Decoder AnalyzerSettings := fun d v => do
  let r ← Record.of fields d v
  let base : AnalyzerSettings := {}
  return {
    floatTolerance := ← r.orDefault d "tolerancia_flutuante" base.floatTolerance .float
    trajectoryLimit := ← r.orDefault d "limite_trajetoria" base.trajectoryLimit .natural }

end AnalyzerSettings

namespace DisplaySettings

def fields : List Field := [⟨"cor_g0", some "rapid_color"⟩, ⟨"cor_g1", some "cut_color"⟩]

def entries (s : DisplaySettings) : List (String × Value) :=
  [("cor_g0", .text s.rapidColor), ("cor_g1", .text s.cutColor)]

def ofValue : Decoder DisplaySettings := fun d v => do
  let r ← Record.of fields d v
  let base : DisplaySettings := {}
  return {
    rapidColor := ← r.orDefault d "cor_g0" base.rapidColor .text
    cutColor := ← r.orDefault d "cor_g1" base.cutColor .text }

end DisplaySettings

namespace LogSettings

def fields : List Field := [⟨"nivel", some "level"⟩, ⟨"arquivo", some "file"⟩]

def entries (s : LogSettings) : List (String × Value) :=
  ("nivel", s.level.toValue) ::
    match s.file with
    | some file => [("arquivo", .text file)]
    | none => []

def ofValue : Decoder LogSettings := fun d v => do
  let r ← Record.of fields d v
  let base : LogSettings := {}
  return {
    level := ← r.orDefault d "nivel" base.level LogLevel.ofValue
    file := ← r.orDefault d "arquivo" base.file (.option .text) }

end LogSettings

namespace Config

def fields : List Field :=
  [⟨"gerador", some "generator"⟩, ⟨"analisador", some "analyzer"⟩,
   ⟨"visualizacao", some "display"⟩, ⟨"log", none⟩]

def sections (c : Config) : List (String × List (String × Value)) :=
  [("gerador", c.generator.entries), ("analisador", c.analyzer.entries),
   ("visualizacao", c.display.entries), ("log", c.log.entries)]

def toValue (c : Config) : Value :=
  .record (c.sections.map fun (key, entries) => (key, .record entries))

def ofValue : Decoder Config := fun d v => do
  let r ← Record.of fields d v
  return {
    generator := ← r.orDefault d "gerador" {} GeneratorSettings.ofValue
    analyzer := ← r.orDefault d "analisador" {} AnalyzerSettings.ofValue
    display := ← r.orDefault d "visualizacao" {} DisplaySettings.ofValue
    log := ← r.orDefault d "log" {} LogSettings.ofValue }

end Config
end BasRelief
