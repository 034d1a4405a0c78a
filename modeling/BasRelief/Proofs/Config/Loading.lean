import BasRelief.Proofs.Config.SaveLoad
import BasRelief.Proofs.Disk.Standing
import Mathlib.Tactic.MkIffOfInductiveProp

/-!
# Configurations that are loaded or saved

The check accepts a configuration exactly if its numbers are finite and in their ranges and its
colours are written as colours. Every way to load a configuration ends with the check or with the
default configuration, which passes it, and every way to save one begins with it. A default file
that is found is loaded or refused. One that stands where the program cannot look for it is passed
over, as if there were none.
-/

namespace BasRelief
open Double

/-! ### What the check accepts -/

/-- The values that a configuration can be used with. -/
@[mk_iff]
structure Config.InRange (c : Config) : Prop where
  positive : ∀ x ∈ [c.generator.stepsPerMm, c.generator.maxDepthPerPass, c.generator.safeZ,
    c.generator.cutFeed, c.generator.rapidFeed], ∃ a, value? x = some a ∧ 0 < a
  nonneg : ∀ x ∈ [c.generator.reliefDepth, c.generator.toolDiameter, c.analyzer.floatTolerance],
    ∃ a, value? x = some a ∧ 0 ≤ a
  depth : ∃ a, value? c.generator.totalDepth = some a
  colors : ∀ s ∈ [c.display.rapidColor, c.display.cutColor],
    ∃ ds, s.toList = '#' :: ds ∧ ds.length = 6 ∧ ∀ d ∈ ds, isHexDigit d = true

theorem isHexColor_iff {s : String} :
    isHexColor s = true ↔
      ∃ ds, s.toList = '#' :: ds ∧ ds.length = 6 ∧ ∀ d ∈ ds, isHexDigit d = true := by
  unfold isHexColor
  split
  case h_1 ds h => simp [h]
  case h_2 h =>
    refine iff_of_false Bool.false_ne_true ?_
    rintro ⟨ds, hds, _⟩
    exact h ds hds

namespace Config

theorem fault?_eq_none_iff_inRange {c : Config} : c.fault? = none ↔ c.InRange := by
  have hdepth : c.generator.totalDepth.isFinite = true ↔
      ∃ a, value? c.generator.totalDepth = some a := isFinite_iff _
  rw [fault?_eq_none_iff, inRange_iff]
  simp only [rules, positiveRule, nonNegativeRule, colorRule, List.forall_mem_cons,
    List.not_mem_nil, false_imp_iff, implies_true, and_true, isPositive_iff, isNonNegative_iff,
    isHexColor_iff, hdepth]
  constructor
  · rintro ⟨hsteps, hlimit, htotal, hrelief, hsafe, hcut, hrapid, htool, htolerance, hcolors⟩
    exact ⟨⟨hsteps, hlimit, hsafe, hcut, hrapid⟩, ⟨hrelief, htool, htolerance⟩, htotal, hcolors⟩
  · rintro ⟨⟨hsteps, hlimit, hsafe, hcut, hrapid⟩, ⟨hrelief, htool, htolerance⟩, htotal, hcolors⟩
    exact ⟨hsteps, hlimit, htotal, hrelief, hsafe, hcut, hrapid, htool, htolerance, hcolors⟩

theorem validated_iff_fault? {c : Config} : c.validated = .ok c ↔ c.fault? = none :=
  ⟨fun h => (validated_eq_ok h).2, validated_of_fault?⟩

theorem validated_iff_inRange {c : Config} : c.validated = .ok c ↔ c.InRange :=
  validated_iff_fault?.trans fault?_eq_none_iff_inRange

theorem validated_default : ({} : Config).validated = .ok {} :=
  validated_of_fault? (by decide +kernel)

/-! ### Loading -/

section
variable {d d' : Disk} {home path : String} {c : Config}

/-- A file is loaded exactly if its format is known, its content is a text and a document of a
configuration, and the configuration is accepted. -/
theorem load_ok_iff :
    load d path = .ok c ↔ ∃ format cs, ConfigFormat.ofPath path = .ok format ∧
      d.readText path = .ok cs ∧ format.decode cs = .ok c ∧ c.validated = .ok c := by
  unfold load
  constructor
  · intro h
    obtain ⟨format, hformat, hfile⟩ := bind_eq_ok_iff.mp h
    obtain ⟨cs, htext, hdocument⟩ := bind_eq_ok_iff.mp hfile
    obtain ⟨c', hdecode, hvalid⟩ := bind_eq_ok_iff.mp hdocument
    obtain ⟨rfl, _⟩ := validated_eq_ok hvalid
    exact ⟨format, cs, hformat, mapError_eq_ok_iff.mp htext, hdecode, hvalid⟩
  · rintro ⟨format, cs, hformat, htext, hdecode, hvalid⟩
    exact bind_eq_ok_iff.mpr ⟨format, hformat, bind_eq_ok_iff.mpr
      ⟨cs, mapError_eq_ok_iff.mpr htext, bind_eq_ok_iff.mpr ⟨c, hdecode, hvalid⟩⟩⟩

theorem validated_of_load (h : load d path = .ok c) : c.validated = .ok c := by
  obtain ⟨_, _, _, _, _, hvalid⟩ := load_ok_iff.mp h
  exact hvalid

/-- A file that is not found is not loaded. -/
theorem exists?_of_load (h : load d path = .ok c) : d.exists? path = true := by
  obtain ⟨_, _, _, htext, _⟩ := load_ok_iff.mp h
  unfold Disk.exists?
  unfold Disk.readText Disk.readOctets Disk.content at htext
  cases hfind : d.find path with
  | error e =>
    rw [hfind] at htext
    cases htext
  | ok e => rfl

/-- The file at a path holds the document of a configuration. -/
def IsWritten (c : Config) (d : Disk) (path : String) : Prop :=
  ∃ format cs, ConfigFormat.ofPath path = .ok format ∧ format.encode c = .ok cs ∧
    d.readText path = .ok cs

theorem validated_of_save (h : c.save d path = .ok d') :
    c.validated = .ok c ∧ c.IsWritten d' path := by
  obtain ⟨format, cs, hfault, hformat, hencode, hwrite⟩ := save_eq_ok h
  exact ⟨validated_of_fault? hfault, format, cs, hformat, hencode,
    Disk.readText_of_writeText hwrite⟩

end
end Config

namespace ConfigSession
variable {d d' : Disk} {home path : String} {path? : Option String} {s : ConfigSession}

theorem load_ok_iff :
    load d path = .ok s ↔ ∃ c, Config.load d path = .ok c ∧ ⟨c, some path⟩ = s := map_eq_ok_iff

theorem map_config_load : (load d path).map config = Config.load d path := by
  unfold load
  cases Config.load d path <;> rfl

theorem validated_of_load (h : load d path = .ok s) : s.config.validated = .ok s.config := by
  obtain ⟨c, hload, rfl⟩ := load_ok_iff.mp h
  exact Config.validated_of_load hload

/-- Where the configuration of a session comes from. -/
inductive LoadedFrom (d : Disk) (home : String) : Option String → ConfigSession → Prop where
  | asked {path : String} {c : Config} (there : d.exists? path = true)
      (h : Config.load d path = .ok c) : LoadedFrom d home (some path) ⟨c, some path⟩
  | found {c : Config} (there : d.exists? (defaultConfigPath home) = true)
      (h : Config.load d (defaultConfigPath home) = .ok c) :
      LoadedFrom d home none ⟨c, some (defaultConfigPath home)⟩
  | none (missing : d.exists? (defaultConfigPath home) = false) :
      LoadedFrom d home none ⟨{}, some (defaultConfigPath home)⟩

theorem loadOrDefault_ok_iff : loadOrDefault d home path? = .ok s ↔ LoadedFrom d home path? s := by
  cases path? with
  | some path =>
    rw [loadOrDefault]
    cases hthere : d.exists? path with
    | false =>
      refine iff_of_false (fun h => by cases h) fun h => ?_
      cases h with
      | asked there => exact absurd there (ne_true_of_eq_false hthere)
    | true =>
      rw [if_pos rfl, load_ok_iff]
      constructor
      · rintro ⟨c, hload, rfl⟩
        exact .asked hthere hload
      · rintro (⟨_, hload⟩)
        exact ⟨_, hload, rfl⟩
  | none =>
    rw [loadOrDefault]
    cases hthere : d.exists? (defaultConfigPath home) with
    | false =>
      rw [if_neg Bool.false_ne_true]
      constructor
      · intro h
        obtain rfl := Except.ok.inj h
        exact .none hthere
      · intro h
        cases h with
        | found there => exact absurd there (ne_true_of_eq_false hthere)
        | none => rfl
    | true =>
      rw [if_pos rfl, load_ok_iff]
      constructor
      · rintro ⟨c, hload, rfl⟩
        exact .found hthere hload
      · intro h
        cases h with
        | found _ hload => exact ⟨_, hload, rfl⟩
        | none missing => exact absurd hthere (ne_true_of_eq_false missing)

theorem LoadedFrom.validated (h : LoadedFrom d home path? s) :
    s.config.validated = .ok s.config := by
  cases h with
  | asked _ hload => exact Config.validated_of_load hload
  | found _ hload => exact Config.validated_of_load hload
  | none => exact Config.validated_default

theorem validated_of_saveTo (h : s.saveTo d path = (d', .ok ())) :
    s.config.validated = .ok s.config ∧ s.config.IsWritten d' path := by
  obtain ⟨_, hsave⟩ := saveTo_eq_ok h
  exact Config.validated_of_save hsave

end ConfigSession

/-! ### The default file -/

/-- What comes of the default file, by what stands at its path and whether the program is let
through to it. -/
structure DefaultLoading (d : Disk) (home : String) : Prop where
  /-- Nothing stands there: the default configuration. -/
  absent : d.standing? (defaultConfigPath home) = none →
    ConfigSession.loadOrDefault d home none = .ok ⟨{}, some (defaultConfigPath home)⟩ ∧
    Config.loadOrDefault d home none = .ok {}
  /-- What stands there is reached: what loading it gives. -/
  reached : ∀ e, d.standing? (defaultConfigPath home) = some e →
    d.Admits (defaultConfigPath home) →
      ConfigSession.loadOrDefault d home none = ConfigSession.load d (defaultConfigPath home) ∧
      Config.loadOrDefault d home none = Config.load d (defaultConfigPath home)
  /-- What stands there is not reached: it is not loaded, and the default configuration stands in
  for it. -/
  barred : ∀ e, d.standing? (defaultConfigPath home) = some e →
    ¬d.Admits (defaultConfigPath home) →
      (∃ err, Config.load d (defaultConfigPath home) = .error err) ∧
      ConfigSession.loadOrDefault d home none = .ok ⟨{}, some (defaultConfigPath home)⟩ ∧
      Config.loadOrDefault d home none = .ok {}

section
variable {d : Disk} {home : String}

theorem loadOrDefault_of_missing (h : d.exists? (defaultConfigPath home) = false) :
    ConfigSession.loadOrDefault d home none = .ok ⟨{}, some (defaultConfigPath home)⟩ ∧
    Config.loadOrDefault d home none = .ok {} := by
  have hsession : ConfigSession.loadOrDefault d home none = .ok _ :=
    ConfigSession.loadOrDefault_ok_iff.mpr (.none h)
  refine ⟨hsession, ?_⟩
  rw [Config.loadOrDefault, hsession]
  rfl

theorem loadOrDefault_of_found (h : d.exists? (defaultConfigPath home) = true) :
    ConfigSession.loadOrDefault d home none = ConfigSession.load d (defaultConfigPath home) ∧
    Config.loadOrDefault d home none = Config.load d (defaultConfigPath home) := by
  have hsession : ConfigSession.loadOrDefault d home none =
      ConfigSession.load d (defaultConfigPath home) := by
    rw [ConfigSession.loadOrDefault, if_pos h]
  refine ⟨hsession, ?_⟩
  rw [Config.loadOrDefault, hsession, ConfigSession.map_config_load]

theorem defaultLoading (d : Disk) (home : String) : DefaultLoading d home where
  absent := by
    intro hnone
    refine loadOrDefault_of_missing (Bool.eq_false_iff.mpr fun hfound => ?_)
    obtain ⟨⟨e, hstands⟩, -⟩ := Disk.exists?_iff.mp hfound
    cases hnone.symm.trans hstands
  reached := fun e hstands hadmits =>
    loadOrDefault_of_found (Disk.exists?_iff.mpr ⟨⟨e, hstands⟩, hadmits⟩)
  barred := by
    intro e hstands hbarred
    have hmissing : d.exists? (defaultConfigPath home) = false :=
      Bool.eq_false_iff.mpr fun hfound => hbarred (Disk.exists?_iff.mp hfound).2
    refine ⟨?_, loadOrDefault_of_missing hmissing⟩
    cases hload : Config.load d (defaultConfigPath home) with
    | error err => exact ⟨err, rfl⟩
    | ok c => exact absurd (Config.exists?_of_load hload) (ne_true_of_eq_false hmissing)

end

/-- No way to load a configuration gives one that the check refuses, and none to save it to a file
writes one. The default configuration stands in for a default file where none stands, and where the
program is not let through to it. -/
theorem loaded_configs_accepted (d : Disk) (home : String) :
    (∀ c : Config, c.validated = .ok c ↔ c.InRange) ∧
    (∀ (path : String) (c : Config), Config.load d path = .ok c ↔
      ∃ format cs, ConfigFormat.ofPath path = .ok format ∧ d.readText path = .ok cs ∧
        format.decode cs = .ok c ∧ c.validated = .ok c) ∧
    (∀ (path : String) (s : ConfigSession), ConfigSession.load d path = .ok s →
      s.config.validated = .ok s.config) ∧
    (∀ (path? : Option String) (s : ConfigSession),
      (ConfigSession.loadOrDefault d home path? = .ok s ↔
        ConfigSession.LoadedFrom d home path? s) ∧
      (ConfigSession.loadOrDefault d home path? = .ok s →
        s.config.validated = .ok s.config)) ∧
    (∀ (path? : Option String) (c : Config), Config.loadOrDefault d home path? = .ok c →
      c.validated = .ok c) ∧
    (∀ (c : Config) (path : String) (d' : Disk), c.save d path = .ok d' →
      c.validated = .ok c ∧ c.IsWritten d' path) ∧
    (∀ (s : ConfigSession) (path : String) (d' : Disk), s.saveTo d path = (d', .ok ()) →
      s.config.validated = .ok s.config ∧ s.config.IsWritten d' path) ∧
    DefaultLoading d home := by
  have hsession (path? : Option String) (s : ConfigSession)
      (h : ConfigSession.loadOrDefault d home path? = .ok s) :
      s.config.validated = .ok s.config := (ConfigSession.loadOrDefault_ok_iff.mp h).validated
  refine ⟨fun c => Config.validated_iff_inRange, fun path c => Config.load_ok_iff,
    fun path s => ConfigSession.validated_of_load,
    fun path? s => ⟨ConfigSession.loadOrDefault_ok_iff, hsession path? s⟩, fun path? c h => ?_,
    fun c path d' => Config.validated_of_save, fun s path d' => ConfigSession.validated_of_saveTo,
    defaultLoading d home⟩
  obtain ⟨s, hs, rfl⟩ := map_eq_ok_iff.mp h
  exact hsession path? s hs

/-! ### A disk with three configurations -/

/-- A file that gives a resolution, a default file under one home that gives none, and one under
another home in a sealed folder. -/
def configDisk : Disk where
  entries :=
    [(["fine.toml"], .file (.octets (Text.encode "[gerador]\npassos_por_mm = 2.0\n".toList))),
     (["home"], .folder), (["home", "reliefkit"], .folder),
     (["home", "reliefkit", "config.toml"],
      .file (.octets (Text.encode "[gerador]\npassos_por_mm = 0.0\n".toList))),
     (["closed"], .folder), (["closed", "reliefkit"], .sealedFolder),
     (["closed", "reliefkit", "config.toml"],
      .file (.octets (Text.encode "[gerador]\npassos_por_mm = 2.0\n".toList)))]

theorem configDisk_accepted :
    (∃ c, Config.load configDisk "fine.toml" = .ok c ∧ c.validated = .ok c) ∧
    (∃ s, ConfigSession.load configDisk "fine.toml" = .ok s ∧
      s.config.validated = .ok s.config) ∧
    (∃ s, ConfigSession.loadOrDefault configDisk "/home" (some "fine.toml") = .ok s ∧
      s.config.validated = .ok s.config) ∧
    (∃ d', ({} : Config).save configDisk "new.json" = .ok d' ∧
      ({} : Config).IsWritten d' "new.json") ∧
    Config.loadOrDefault configDisk "/elsewhere" none = .ok {} ∧
    (∃ e, Config.loadOrDefault configDisk "/home" none = .error e) ∧
    (∃ e, Config.load configDisk (defaultConfigPath "/closed") = .error e) ∧
    Config.loadOrDefault configDisk "/closed" none = .ok {} := by
  obtain ⟨_, hfile, hload, hsession, _, hsave, _, hhome⟩ :=
    loaded_configs_accepted configDisk "/home"
  obtain ⟨_, _, _, _, _, _, _, helsewhere⟩ := loaded_configs_accepted configDisk "/elsewhere"
  obtain ⟨_, _, _, _, _, _, _, hclosed⟩ := loaded_configs_accepted configDisk "/closed"
  obtain ⟨c, hc⟩ := exists_of_isOk (x := Config.load configDisk "fine.toml") (by decide +kernel)
  obtain ⟨_, _, _, _, _, hvalid⟩ := (hfile "fine.toml" c).mp hc
  obtain ⟨s, hs⟩ := exists_of_isOk (x := ConfigSession.load configDisk "fine.toml")
    (by decide +kernel)
  obtain ⟨t, ht⟩ := exists_of_isOk
    (x := ConfigSession.loadOrDefault configDisk "/home" (some "fine.toml")) (by decide +kernel)
  obtain ⟨d', hd'⟩ := exists_of_isOk (x := ({} : Config).save configDisk "new.json")
    (by decide +kernel)
  have hfound : configDisk.exists? (defaultConfigPath "/home") = true := by decide +kernel
  obtain ⟨⟨e, hstands⟩, hadmits⟩ := Disk.exists?_iff.mp hfound
  obtain ⟨e', hstands'⟩ := Option.isSome_iff_exists.mp
    (show (configDisk.standing? (defaultConfigPath "/closed")).isSome = true by decide +kernel)
  have hmissed : ¬configDisk.exists? (defaultConfigPath "/closed") = true := by decide +kernel
  obtain ⟨hrefused, _, hdefault⟩ := hclosed.barred e' hstands' fun hadmits =>
    hmissed (Disk.exists?_iff.mpr ⟨⟨e', hstands'⟩, hadmits⟩)
  refine ⟨⟨c, hc, hvalid⟩, ⟨s, hs, hload _ s hs⟩, ⟨t, ht, (hsession _ t).2 ht⟩,
    ⟨d', hd', (hsave _ _ d' hd').2⟩, (helsewhere.absent (by decide +kernel)).2, ?_, hrefused,
    hdefault⟩
  rw [(hhome.reached e hstands hadmits).2]
  exact exists_of_isOk_eq_false (by decide +kernel)

/-- A default file in a sealed folder is refused when it is asked for, and otherwise passed over:
the default configuration is given in its place. -/
theorem sealed_config_passed_over :
    (configDisk.standing? "/closed/reliefkit/config.toml").isSome = true ∧
    Config.load configDisk "/closed/reliefkit/config.toml" =
      .error (.load "/closed/reliefkit/config.toml: Permission denied (os error 13)") ∧
    Config.loadOrDefault configDisk "/closed" none = .ok {} := by
  refine ⟨by decide +kernel, ?_, (loadOrDefault_of_missing (by decide +kernel)).2⟩
  rfl

end BasRelief
