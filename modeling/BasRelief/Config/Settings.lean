import BasRelief.Text.Quoted
import BasRelief.Toolpath.Parameters

/-!
# Settings

The configuration of the program in four sections, its defaults, and the check that every
configuration has to pass before it is used or written.
-/

namespace BasRelief

/-- How programs are made from images. Lengths are in millimetres, feeds in millimetres per
minute; a negative depth is below the surface. -/
structure GeneratorSettings where
  stepsPerMm : Float := 1
  threshold : UInt8 := 128
  maxDepthPerPass : Float := 2
  totalDepth : Float := -3
  reliefDepth : Float := 2
  safeZ : Float := 5
  rapidFeed : Float := 3000
  cutFeed : Float := 1500
  toolDiameter : Float := 3.175

/-- How programs are analysed: distances up to the tolerance are no movement, and the trajectory
keeps a limited number of points. -/
structure AnalyzerSettings where
  floatTolerance : Float := 1e-6
  trajectoryLimit : Nat := 1000000

/-- Colours for drawing, as `#` and six hexadecimal digits. -/
structure DisplaySettings where
  rapidColor : String := "#ff0000"
  cutColor : String := "#0000ff"
  deriving DecidableEq, Repr

inductive LogLevel where
  | trace
  | debug
  | info
  | warn
  | error
  deriving DecidableEq, Repr

structure LogSettings where
  level : LogLevel := .info
  file : Option String := none
  deriving DecidableEq, Repr

structure Config where
  generator : GeneratorSettings := {}
  analyzer : AnalyzerSettings := {}
  display : DisplaySettings := {}
  log : LogSettings := {}

/-- Why a configuration cannot be read, written or used. The last case is a text with more quotes
side by side than the TOML writer can count. -/
inductive ConfigError where
  | load (reason : String)
  | save (reason : String)
  | invalid (key reason : String)
  | unsupportedFormat (name : String)
  | directory (reason : String)
  | io (reason : String)
  | json (reason : String)
  | toml (reason : String)
  | tomlWrite (reason : String)
  | quoteRun
  deriving DecidableEq, Repr

namespace ConfigError

def message : ConfigError → String
  | load reason => "Failed to load settings: " ++ reason
  | save reason => "Failed to save settings: " ++ reason
  | invalid key reason => "Invalid setting '" ++ key ++ "': " ++ reason
  | unsupportedFormat name => "Unsupported config format: " ++ name
  | directory reason => "Config directory error: " ++ reason
  | io reason => "I/O error: " ++ reason
  | json reason => "JSON error: " ++ reason
  | toml reason => "TOML error: " ++ reason
  | tomlWrite reason => "TOML error: " ++ reason
  | quoteRun => "Too many quotes side by side"

/-- An error that ends the program instead of being reported. -/
def isFatal : ConfigError → Bool
  | quoteRun => true
  | _ => false

def cause? : ConfigError → Option String
  | io reason => some reason
  | json reason => some reason
  | toml reason => some reason
  | tomlWrite reason => some reason
  | _ => none

end ConfigError

namespace LogLevel

def all : List LogLevel := [trace, debug, info, warn, error]

def name : LogLevel → String
  | trace => "trace"
  | debug => "debug"
  | info => "info"
  | warn => "warn"
  | error => "error"

/-- The level of a word in any case; `warning` is another word for `warn`. -/
def ofWord? (s : String) : Option LogLevel :=
  match String.ofList (s.toList.map Char.toLower) with
  | "trace" => some trace
  | "debug" => some debug
  | "info" => some info
  | "warn" => some warn
  | "warning" => some warn
  | "error" => some error
  | _ => none

/-- The level of a word, or an error for any other word (`LogLevel::from_str`). -/
def ofWord (s : String) : Except ConfigError LogLevel :=
  match ofWord? s with
  | some level => .ok level
  | none => .error (.invalid "nivel" ("unknown level: " ++ s))

theorem ofWord?_name (l : LogLevel) : ofWord? l.name = some l := by
  cases l <;> rfl

end LogLevel

namespace GeneratorSettings

/-- The distance of two grid points (`step_mm`). -/
def step (g : GeneratorSettings) : Float := 1 / g.stepsPerMm

/-- The parameters of programs that follow the settings (`ToolpathParameters::from_settings`). -/
def toolpath (g : GeneratorSettings) : ToolpathParameters Float where
  step := g.step
  safeZ := g.safeZ
  rapidFeed := g.rapidFeed
  cutFeed := g.cutFeed
  maxDepthPerPass := g.maxDepthPerPass
  toolDiameter := g.toolDiameter

end GeneratorSettings

/-! ### Validation -/

def isHexDigit (c : Char) : Bool :=
  Decimal.isDigit c || ('a' ≤ c && c ≤ 'f') || ('A' ≤ c && c ≤ 'F')

/-- Whether a text is a colour, a `#` and six hexadecimal digits (`is_hex_color`). -/
def isHexColor (s : String) : Bool :=
  match s.toList with
  | '#' :: ds => ds.length = 6 && ds.all isHexDigit
  | _ => false

namespace Config

def isNonNegative (v : Float) : Bool := v.isFinite && Scalar.atMost 0 v

structure Rule where
  key : String
  holds : Bool
  reason : String

def positiveRule (key : String) (v : Float) : Rule := ⟨key, Scalar.isPositive v, "must be > 0"⟩

def nonNegativeRule (key : String) (v : Float) : Rule := ⟨key, isNonNegative v, "must be >= 0"⟩

def colorRule (key color : String) : Rule :=
  ⟨key, isHexColor color, "expected #RRGGBB, got " ++ Text.quoted color⟩

/-- What `Config::validate` asks for, in its order. -/
def rules (c : Config) : List Rule :=
  [positiveRule "passos_por_mm" c.generator.stepsPerMm,
   positiveRule "profundidade_max_corte" c.generator.maxDepthPerPass,
   ⟨"profundidade_total", c.generator.totalDepth.isFinite, "must be finite"⟩,
   nonNegativeRule "profundidade_relevo" c.generator.reliefDepth,
   positiveRule "altura_seguranca_z" c.generator.safeZ,
   positiveRule "velocidade_f_corte" c.generator.cutFeed,
   positiveRule "velocidade_f_rapida" c.generator.rapidFeed,
   nonNegativeRule "diametro_ferramenta" c.generator.toolDiameter,
   nonNegativeRule "tolerancia_flutuante" c.analyzer.floatTolerance,
   colorRule "cor_g0" c.display.rapidColor,
   colorRule "cor_g1" c.display.cutColor]

/-- The first rule that a configuration breaks, as the error of `Config::validate`. -/
def fault? (c : Config) : Option ConfigError :=
  (c.rules.find? (!·.holds)).map fun rule => .invalid rule.key rule.reason

def isValid (c : Config) : Bool := c.fault?.isNone

def validated (c : Config) : Except ConfigError Config :=
  match c.fault? with
  | some e => .error e
  | none => .ok c

theorem fault?_eq_none_iff (c : Config) : c.fault? = none ↔ ∀ rule ∈ c.rules, rule.holds := by
  simp [fault?, Option.map_eq_none_iff, List.find?_eq_none]

end Config
end BasRelief
