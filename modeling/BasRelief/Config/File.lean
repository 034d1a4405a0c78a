import BasRelief.Config.Format
import BasRelief.Disk.Files

/-!
# Configuration files

Where the configuration lives, how it is loaded and how it is saved. Whatever is loaded or saved
passed the check of `Config.validated`.
-/

namespace BasRelief

/-! ### One file -/

namespace Config

/-- The configuration in a file (`load_from_file`). The format is settled before the file is
read. -/
def load (d : Disk) (path : String) : Except ConfigError Config := do
  let format ← ConfigFormat.ofPath path
  let cs ← (d.readText path).mapError fun e => .load (path ++ ": " ++ e.message)
  let c ← format.decode cs
  c.validated

/-- The disk with the configuration in a file (`Config::save_to_file`). -/
def save (c : Config) (d : Disk) (path : String) : Except ConfigError Disk := do
  let c ← c.validated
  let format ← ConfigFormat.ofPath path
  let cs ← format.encode c
  (d.writeText path cs).mapError fun e => .save (path ++ ": " ++ e.message)

end Config

/-! ### Sessions -/

/-- The file of the configuration in the folder that holds the configurations of all programs
(`default_path`). -/
def defaultConfigPath (home : String) : String :=
  (if Path.endsInSlash home then home else home ++ "/") ++ "reliefkit/config.toml"

/-- A configuration and the file it belongs to (`SettingsPersistence`). -/
structure ConfigSession where
  config : Config := {}
  path? : Option String := none

namespace ConfigSession

/-- The session of a file (`SettingsPersistence::load_from_file`). -/
def load (d : Disk) (path : String) : Except ConfigError ConfigSession :=
  (Config.load d path).map fun c => ⟨c, some path⟩

/-- The configuration in the file that was asked for; otherwise the one in the default file, or the
default configuration if none is found there (`load_or_default`). -/
def loadOrDefault (d : Disk) (home : String) : Option String → Except ConfigError ConfigSession
  | some path =>
    if d.exists? path then load d path else .error (.load (path ++ ": file not found"))
  | none =>
    let path := defaultConfigPath home
    if d.exists? path then load d path else .ok ⟨{}, some path⟩

/-- What came of saving to a file (`SettingsPersistence::save_to_file`). Missing folders are made
first, and stay if the rest fails. -/
def saveTo (s : ConfigSession) (d : Disk) (path : String) : Disk × Except ConfigError Unit :=
  match d.makeParents path with
  | (d, .error e) => (d, .error (.io e.message))
  | (d, .ok ()) =>
    match s.config.save d path with
    | .error e => (d, .error e)
    | .ok d => (d, .ok ())

/-- What came of saving to the file of the session (`SettingsPersistence::save`). -/
def save (s : ConfigSession) (d : Disk) : Disk × Except ConfigError Unit :=
  match s.path? with
  | some path => s.saveTo d path
  | none => (d, .error (.save "no file associated with these settings"))

end ConfigSession

/-- The configuration alone, from the same place (`Config::load_or_default`). -/
def Config.loadOrDefault (d : Disk) (home : String) (path? : Option String) :
    Except ConfigError Config :=
  (ConfigSession.loadOrDefault d home path?).map ConfigSession.config

/-! ### Laws -/

namespace Config

theorem validated_eq_ok {c c' : Config} (h : c.validated = .ok c') : c' = c ∧ c.fault? = none := by
  unfold validated at h
  split at h
  · cases h
  · next none_broken => cases h; exact ⟨rfl, none_broken⟩

end Config
end BasRelief
