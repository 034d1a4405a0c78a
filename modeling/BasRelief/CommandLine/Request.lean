import BasRelief.CommandLine.Arguments
import BasRelief.Pipeline

/-!
# Requests

What a command line asks for: one of three commands, each with options of its own, and the file of
the configuration before or after the command.
-/

namespace BasRelief.CommandLine

inductive ModeName where
  | color
  | grayscale
  | binary
  deriving DecidableEq, Repr

inductive Command where
  | generate (image output : String) (mode : ModeName) (depth? reliefDepth? : Option Float)
      (enhancement : Enhancement) (size : TargetSize Float)
  | analyze (program : String) (json : Bool)
  | initConfig (path : String)

structure Request where
  config? : Option String
  command : Command

def Request.paths (r : Request) : List String :=
  r.config?.toList ++
    match r.command with
    | .generate image output .. => [image, output]
    | .analyze program _ => [program]
    | .initConfig path => [path]

/-! ### What may be given -/

def helpSwitch : Switch := ⟨"help", some 'h', .stop .help⟩

def configSwitch : Switch := ⟨"config", none, .value .path false⟩

def programGrammar : Grammar where
  switches := [configSwitch, helpSwitch, ⟨"version", some 'V', .stop .version⟩]

def modeNames : List (String × ModeName) :=
  [("color", .color), ("grayscale", .grayscale), ("binary", .binary)]

def enhancementNames : List (String × Enhancement) :=
  [("none", .none), ("standard", .standard), ("inverted", .inverted), ("aggressive", .aggressive)]

def generateGrammar : Grammar where
  switches :=
    [⟨"output", some 'o', .value .path false⟩,
     ⟨"mode", none, .value (.oneOf (modeNames.map Prod.fst)) false⟩,
     ⟨"depth", none, .value .number true⟩,
     ⟨"relief-depth", none, .value .number false⟩,
     ⟨"enhance", none, .value (.oneOf (enhancementNames.map Prod.fst)) false⟩,
     ⟨"width-mm", none, .value .number false⟩,
     ⟨"height-mm", none, .value .number false⟩,
     configSwitch, helpSwitch]
  arguments := [("image", .path)]

def analyzeGrammar : Grammar where
  switches := [⟨"json", none, .flag⟩, configSwitch, helpSwitch]
  arguments := [("program", .path)]

def initConfigGrammar : Grammar where
  switches := [configSwitch, helpSwitch]
  arguments := [("path", .path)]

/-! ### Commands -/

def generateCommand (r : Reading) : Except Stop Command := do
  return .generate (← r.required "image") (← r.required "output")
    (((r.value? "mode").bind fun s => modeNames.lookup s).getD .color)
    (r.number? "depth") (r.number? "relief-depth")
    (((r.value? "enhance").bind fun s => enhancementNames.lookup s).getD .standard)
    ⟨r.number? "width-mm", r.number? "height-mm"⟩

def analyzeCommand (r : Reading) : Except Stop Command := do
  return .analyze (← r.required "program") (r.given "json")

def initConfigCommand (r : Reading) : Except Stop Command := do
  return .initConfig (← r.required "path")

def commands : List (String × Grammar × (Reading → Except Stop Command)) :=
  [("generate", generateGrammar, generateCommand),
   ("analyze", analyzeGrammar, analyzeCommand),
   ("init-config", initConfigGrammar, initConfigCommand)]

def helpOn : List String → Stop
  | [] => .help
  | [name] => if name = "help" || (commands.lookup name).isSome then .help else .usage
  | _ => .usage

/-- The words after the name of a command. A file named there comes before one named earlier. -/
def commandRequest (r : Reading) (name : String) (ws : List String) : Except Stop Request :=
  if name = "help" then .error (helpOn ws)
  else
    match commands.lookup name with
    | none => .error .usage
    | some (grammar, command) => do
      let inner ← ({} : Reading).words grammar ws
      return ⟨inner.value? "config" <|> r.value? "config", ← command inner⟩

def programRequest (r : Reading) : List String → Except Stop Request
  | [] => .error .usage
  | word :: rest =>
    if r.wordsOnly then .error .usage
    else if r.pending?.isNone && !looksLikeOption word then commandRequest r word rest
    else
      match r.word programGrammar word with
      | .error why => .error why
      | .ok r => programRequest r rest

def request (words : List String) : Except Stop Request := programRequest {} words

end BasRelief.CommandLine
