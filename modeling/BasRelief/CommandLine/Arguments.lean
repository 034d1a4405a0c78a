import BasRelief.Number.Double

/-!
# Arguments

How the words of a command line become named values. The words are taken one at a time, and the
first one that does not fit ends the reading. An option takes its value from the same word or from
the next one; after a double hyphen no word is an option.
-/

namespace BasRelief.CommandLine

inductive Stop where
  | usage
  | help
  | version
  deriving DecidableEq, Repr

inductive ValueRule where
  | path
  | number
  | oneOf (words : List String)
  deriving DecidableEq, Repr

namespace ValueRule

def accepts : ValueRule → String → Bool
  | path, s => s ≠ ""
  | number, s => (Double.read? s.toList).isSome
  | oneOf words, s => words.contains s

end ValueRule

inductive OptionRule where
  | stop (why : Stop)
  | flag
  /-- The value may be a word that looks like an option only if the rule says so. -/
  | value (rule : ValueRule) (hyphens : Bool)
  deriving DecidableEq, Repr

structure Switch where
  name : String
  letter? : Option Char := none
  rule : OptionRule
  deriving DecidableEq, Repr

structure Grammar where
  switches : List Switch
  arguments : List (String × ValueRule) := []

/-- The values that were given so far, by name; an option that waits for its value; and whether
words are options no more. -/
structure Reading where
  values : List (String × String) := []
  pending? : Option Switch := none
  wordsOnly : Bool := false

/-- A word that starts like an option; a single hyphen does not. -/
def looksLikeOption (word : String) : Bool :=
  match word.toList with
  | '-' :: _ :: _ => true
  | _ => false

namespace Reading

def given (r : Reading) (name : String) : Bool := (r.values.lookup name).isSome

def add (r : Reading) (name value : String) : Except Stop Reading :=
  if r.given name then .error .usage
  else .ok { r with values := r.values ++ [(name, value)], pending? := none }

def addValue (r : Reading) (name : String) (rule : ValueRule) (value : String) :
    Except Stop Reading :=
  if rule.accepts value then r.add name value else .error .usage

def argument (g : Grammar) (r : Reading) (word : String) : Except Stop Reading :=
  match g.arguments.find? fun (name, _) => !r.given name with
  | some (name, rule) => r.addValue name rule word
  | none => .error .usage

def option (r : Reading) (s : Switch) (attached? : Option String) : Except Stop Reading :=
  match s.rule, attached? with
  | .stop why, none => .error why
  | .flag, none => r.add s.name ""
  | .value _ _, none => .ok { r with pending? := some s }
  | .value rule _, some value => r.addValue s.name rule value
  | _, some _ => .error .usage

def longOption (g : Grammar) (r : Reading) (cs : List Char) : Except Stop Reading :=
  let name := cs.takeWhile (· ≠ '=')
  match g.switches.find? fun s => s.name.toList = name with
  | none => .error .usage
  | some s =>
    match cs.drop name.length with
    | [] => r.option s none
    | _ :: value => r.option s (some (String.ofList value))

/-- A letter after one hyphen, and the value right behind it or behind an equals sign. -/
def shortOption (g : Grammar) (r : Reading) (letter : Char) (cs : List Char) :
    Except Stop Reading :=
  match g.switches.find? fun s => s.letter? = some letter with
  | none => .error .usage
  | some s =>
    match s.rule, cs with
    | .value _ _, '=' :: value => r.option s (some (String.ofList value))
    | .value _ _, c :: value => r.option s (some (String.ofList (c :: value)))
    | _, _ => r.option s none

def word (g : Grammar) (r : Reading) (word : String) : Except Stop Reading :=
  if r.wordsOnly then r.argument g word
  else
    match r.pending? with
    | some s =>
      match s.rule with
      | .value rule hyphens =>
        if looksLikeOption word && !hyphens then .error .usage else r.addValue s.name rule word
      | _ => .error .usage
    | none =>
      match word.toList with
      | ['-', '-'] => .ok { r with wordsOnly := true }
      | '-' :: '-' :: cs => r.longOption g cs
      | '-' :: letter :: cs => r.shortOption g letter cs
      | _ => r.argument g word

def complete (r : Reading) : Except Stop Reading :=
  match r.pending? with
  | some _ => .error .usage
  | none => .ok r

def words (g : Grammar) (r : Reading) (ws : List String) : Except Stop Reading := do
  (← ws.foldlM (word g) r).complete

def required (r : Reading) (name : String) : Except Stop String :=
  match r.values.lookup name with
  | some value => .ok value
  | none => .error .usage

def value? (r : Reading) (name : String) : Option String := r.values.lookup name

def number? (r : Reading) (name : String) : Option Float :=
  (r.value? name).bind fun s => Double.read? s.toList

end Reading
end BasRelief.CommandLine
