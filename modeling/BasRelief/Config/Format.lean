import BasRelief.Config.Codec
import BasRelief.Disk.Path
import BasRelief.Document.Json.Reader
import BasRelief.Document.Json.Writer
import BasRelief.Document.Toml.Reader
import BasRelief.Document.Toml.Writer

/-!
# Configuration documents

A configuration as JSON or TOML text. The extension of a path, in small letters, says which.
-/

namespace BasRelief

inductive ConfigFormat where
  | json
  | toml
  deriving DecidableEq, Repr

namespace ConfigFormat

/-- The format that the extension of a path names (`format_for`). -/
def ofPath (path : String) : Except ConfigError ConfigFormat :=
  match Path.extension? path with
  | some "json" => .ok json
  | some "toml" => .ok toml
  | some other => .error (.unsupportedFormat other)
  | none => .error (.unsupportedFormat "<none>")

def unwritten : Document.Toml.WriteError → ConfigError
  | .integerRange => .tomlWrite "integer out of range"
  | .quoteRun => .quoteRun
  | .misplaced => .tomlWrite "value out of place"

def encode : ConfigFormat → Config → Except ConfigError (List Char)
  | json, c => .ok (Document.Json.write .indented 0 c.toValue)
  | toml, c => (Document.Toml.write c.sections).mapError unwritten

def document : ConfigFormat → List Char → Except ConfigError Document.Value
  | json, cs =>
    match Document.Json.read? cs with
    | some v => .ok v
    | none => .error (.json "malformed document")
  | toml, cs =>
    match Document.Toml.read? cs with
    | some v => .ok v
    | none => .error (.toml "malformed document")

def mismatch (format : ConfigFormat) (e : Document.DecodeError) : ConfigError :=
  match format with
  | json => .json e.message
  | toml => .toml e.message

def dialect : ConfigFormat → Document.Dialect
  | json => .json
  | toml => .toml

def decode (format : ConfigFormat) (cs : List Char) : Except ConfigError Config := do
  let v ← format.document cs
  (Config.ofValue format.dialect v).mapError format.mismatch

end ConfigFormat
end BasRelief
