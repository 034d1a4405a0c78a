import BasRelief.Config.File
import BasRelief.Proofs.Config.Decoding
import BasRelief.Proofs.Disk.ReadBack
import BasRelief.Proofs.Document.Json.ExactDoubles
import BasRelief.Proofs.Document.Json.ReadBack
import BasRelief.Proofs.Document.Toml.Sections

/-!
# A saved configuration is loaded again

What was saved is loaded as it was, up to its doubles: TOML keeps every double, JSON those that its
reader finds again in the digits that were written.
-/

namespace BasRelief
open Document

namespace ConfigFormat

/-- How the values of a document are read back. -/
def shown : ConfigFormat → Value → Value
  | json => Json.reread
  | toml => id

/-- The tables of the document are written as one value. -/
def isClosed : ConfigFormat → Bool
  | json => true
  | toml => false

/-- A double that comes back from a document of this format. -/
def Keeps : ConfigFormat → Float → Prop
  | json, x => Json.reread? x = some x
  | toml, _ => True

theorem keepsRest_shown (format : ConfigFormat) : KeepsRest format.shown where
  natural := by
    intro n hn
    cases format with
    | json => exact Json.keepsRest_reread.natural n hn
    | toml => rfl
  text := by
    intro s
    cases format <;> rfl

theorem shownDouble_eq_self_iff (format : ConfigFormat) {x : Float} {a : Rat}
    (hx : Double.value? x = some a) :
    shownDouble format.dialect format.shown x = .ok x ↔ format.Keeps x := by
  cases format with
  | json =>
    show Decoder.float .json ((Json.wordValue? (Json.floatText x)).getD .unreadable) = .ok x ↔
      Json.reread? x = some x
    rw [Json.wordValue?_floatText hx, Option.getD_some]
    cases hread : Json.reread? x with
    | none => exact iff_of_false (fun h => by cases h) fun h => by cases h
    | some y =>
      show Except.ok y = Except.ok x ↔ some y = some x
      rw [Except.ok.injEq, Option.some.injEq]
  | toml => exact iff_of_true rfl trivial

end ConfigFormat

/-! ### Documents -/

namespace Config

/-- Keys that need no quotes and come once. -/
def ArePlain (keys : List String) : Prop := keys.Nodup ∧ ∀ key ∈ keys, Toml.IsBareKey key

instance (keys : List String) : Decidable (ArePlain keys) := inferInstanceAs (Decidable (_ ∧ _))

theorem arePlain_log (s : LogSettings) : ArePlain (s.entries.map Prod.fst) := by
  obtain ⟨level, file⟩ := s
  cases file with
  | none => show ArePlain ["nivel"]; decide +kernel
  | some file => show ArePlain ["nivel", "arquivo"]; decide +kernel

theorem arePlain_sections (c : Config) {s : String × List (String × Value)} (hs : s ∈ c.sections) :
    ArePlain (s.2.map Prod.fst) := by
  simp only [sections, List.mem_cons, List.not_mem_nil, or_false] at hs
  obtain rfl | rfl | rfl | rfl := hs
  · show ArePlain (GeneratorSettings.fields.map Field.key)
    decide +kernel
  · show ArePlain (AnalyzerSettings.fields.map Field.key)
    decide +kernel
  · show ArePlain (DisplaySettings.fields.map Field.key)
    decide +kernel
  · exact arePlain_log c.log

theorem ne_float_of_mem_log {s : LogSettings} {e : String × Value} (he : e ∈ s.entries)
    (x : Float) : e.2 ≠ .float x := by
  intro hx
  obtain ⟨level, file⟩ := s
  cases file with
  | none =>
    obtain rfl := List.mem_singleton.mp he
    cases hx
  | some file =>
    simp only [LogSettings.entries, List.mem_cons, List.not_mem_nil, or_false] at he
    obtain rfl | rfl := he
    all_goals cases hx

theorem mem_doubles {c : Config} {s : String × List (String × Value)} (hs : s ∈ c.sections)
    {e : String × Value} (he : e ∈ s.2) {x : Float} (hx : e.2 = .float x) : x ∈ c.doubles := by
  simp only [doubles, GeneratorSettings.doubles, AnalyzerSettings.doubles, List.cons_append,
    List.nil_append, List.mem_cons, List.not_mem_nil, or_false]
  simp only [sections, List.mem_cons, List.not_mem_nil, or_false] at hs
  obtain rfl | rfl | rfl | rfl := hs
  · simp only [GeneratorSettings.entries, List.mem_cons, List.not_mem_nil, or_false] at he
    obtain rfl | rfl | rfl | rfl | rfl | rfl | rfl | rfl | rfl := he
    all_goals
      cases hx
      try simp
  · simp only [AnalyzerSettings.entries, List.mem_cons, List.not_mem_nil, or_false] at he
    obtain rfl | rfl := he
    all_goals
      cases hx
      try simp
  · simp only [DisplaySettings.entries, List.mem_cons, List.not_mem_nil, or_false] at he
    obtain rfl | rfl := he
    all_goals cases hx
  · exact absurd hx (ne_float_of_mem_log he x)

theorem isPlain_sections {c : Config} (h : c.fault? = none) : Toml.IsPlain c.sections where
  names := by
    show (fields.map Field.key).Nodup
    decide +kernel
  bareNames := by
    show ∀ name ∈ fields.map Field.key, Toml.IsBareKey name
    decide +kernel
  keys := fun _ hs => (arePlain_sections c hs).1
  bareKeys := fun _ hs => (arePlain_sections c hs).2
  finite := fun _ hs _ he _ hx => doubles_finite h _ (mem_doubles hs he hx)

theorem reread_toValue (c : Config) :
    Json.reread c.toValue = shownSections true Json.reread c.sections := by
  rw [toValue, Json.reread_record, shownSections, shownTable, shownTable, List.map_map, List.map_map]
  congr 1
  apply List.map_congr_left
  intro s _
  show (some s.1, Json.reread (.record s.2)) = _
  rw [Json.reread_record]
  rfl

/-- The document that was written holds the sections of the configuration. -/
theorem document_of_encode {c : Config} (h : c.fault? = none) {format : ConfigFormat}
    {cs : List Char} (hencode : format.encode c = .ok cs) :
    format.document cs = .ok (shownSections format.isClosed format.shown c.sections) := by
  cases format with
  | json =>
    cases hencode
    have hread := Json.read?_write Json.Layout.indented_isBlank c.toValue
    rw [reread_toValue] at hread
    rw [ConfigFormat.document, hread]
    rfl
  | toml =>
    have hwrite : Toml.write c.sections = .ok cs := by
      cases hwrite : Toml.write c.sections with
      | error e => rw [ConfigFormat.encode, hwrite] at hencode; cases hencode
      | ok text => rw [ConfigFormat.encode, hwrite] at hencode; cases hencode; rfl
    have hsections : Toml.sectionsValue c.sections = shownSections false id c.sections := by
      rw [shownSections, shownTable, List.map_map]
      rfl
    rw [ConfigFormat.document, Toml.read?_write (isPlain_sections h) hwrite, hsections]
    rfl

theorem decode_of_encode {c : Config} (h : c.fault? = none)
    (hc : c.analyzer.trajectoryLimit < wordSize) {format : ConfigFormat} {cs : List Char}
    (hencode : format.encode c = .ok cs) :
    format.decode cs =
      (c.mapDoubles (shownDouble format.dialect format.shown)).mapError format.mismatch := by
  rw [ConfigFormat.decode, document_of_encode h hencode]
  show (Config.ofValue format.dialect _).mapError format.mismatch = _
  rw [ofValue_shownSections format.keepsRest_shown _ _ hc]

/-! ### Files -/

theorem validated_of_fault? {c : Config} (h : c.fault? = none) : c.validated = .ok c := by
  rw [validated, h]

theorem save_eq_ok {c : Config} {d d' : Disk} {path : String} (h : c.save d path = .ok d') :
    ∃ format cs, c.fault? = none ∧ ConfigFormat.ofPath path = .ok format ∧
      format.encode c = .ok cs ∧ d.writeText path cs = .ok d' := by
  unfold save at h
  obtain ⟨c', hvalid, hrest⟩ := bind_eq_ok_iff.mp h
  obtain ⟨format, hformat, hdocument⟩ := bind_eq_ok_iff.mp hrest
  obtain ⟨cs, hencode, hwrite⟩ := bind_eq_ok_iff.mp hdocument
  obtain ⟨rfl, hfault⟩ := validated_eq_ok hvalid
  exact ⟨format, cs, hfault, hformat, hencode, mapError_eq_ok_iff.mp hwrite⟩

/-- The file that was written is loaded as the configuration with its doubles read back, if that
is accepted. -/
theorem load_of_save {c : Config} (hc : c.analyzer.trajectoryLimit < wordSize) {d d' : Disk}
    {path : String} {format : ConfigFormat} (hformat : ConfigFormat.ofPath path = .ok format)
    (hsave : c.save d path = .ok d') :
    load d' path = (do
      let c' ← (c.mapDoubles (shownDouble format.dialect format.shown)).mapError format.mismatch
      c'.validated) := by
  obtain ⟨_, cs, hfault, hformat', hencode, hwrite⟩ := save_eq_ok hsave
  cases hformat'.symm.trans hformat
  unfold load
  rw [hformat, Disk.readText_of_writeText hwrite]
  show (do
    let c' ← format.decode cs
    c'.validated) = _
  rw [decode_of_encode hfault hc hencode]

theorem load_eq_ok_iff {c : Config} (hc : c.analyzer.trajectoryLimit < wordSize) {d d' : Disk}
    {path : String} {format : ConfigFormat} (hformat : ConfigFormat.ofPath path = .ok format)
    (hsave : c.save d path = .ok d') :
    load d' path = .ok c ↔ ∀ x ∈ c.doubles, format.Keeps x := by
  obtain ⟨_, _, hfault, _, _, _⟩ := save_eq_ok hsave
  have hsame : load d' path = .ok c ↔
      c.mapDoubles (shownDouble format.dialect format.shown) = .ok c := by
    rw [load_of_save hc hformat hsave, bind_eq_ok_iff]
    constructor
    · rintro ⟨c', hread, hvalid⟩
      obtain ⟨rfl, _⟩ := validated_eq_ok hvalid
      exact mapError_eq_ok_iff.mp hread
    · intro hread
      exact ⟨c, mapError_eq_ok_iff.mpr hread, validated_of_fault? hfault⟩
  rw [hsame, mapDoubles_eq_self]
  apply forall₂_congr
  intro x hx
  obtain ⟨a, ha⟩ := doubles_finite hfault x hx
  exact format.shownDouble_eq_self_iff ha

end Config

theorem ConfigSession.saveTo_eq_ok {s : ConfigSession} {d d' : Disk} {path : String}
    (h : s.saveTo d path = (d', .ok ())) : ∃ before, s.config.save before path = .ok d' := by
  unfold saveTo at h
  cases hfolders : d.makeParents path with
  | mk before made =>
    rw [hfolders] at h
    cases made with
    | error e => cases h
    | ok _ =>
      refine ⟨before, ?_⟩
      cases hsave : s.config.save before path with
      | error e => simp only [hsave] at h; cases h
      | ok after => simp only [hsave] at h; cases h; rfl

/-- A configuration that was saved, by itself or by a session, is loaded as it was just when the
format keeps each of its doubles. TOML keeps all of them, JSON those that are exact. -/
theorem Config.round_trip {c : Config} (hc : c.analyzer.trajectoryLimit < wordSize)
    {path : String} {format : ConfigFormat} (hformat : ConfigFormat.ofPath path = .ok format)
    (d d' : Disk) (home : String) :
    (c.save d path = .ok d' →
      (load d' path = .ok c ↔ ∀ x ∈ c.doubles, format.Keeps x)) ∧
    (∀ s : ConfigSession, s.config = c → s.saveTo d path = (d', .ok ()) →
      (ConfigSession.loadOrDefault d' home (some path) = .ok ⟨c, some path⟩ ↔
        ∀ x ∈ c.doubles, format.Keeps x)) ∧
    (c.fault? = none → (format = .json → ∀ x ∈ c.doubles, Json.IsExact x = true) →
      ∀ x ∈ c.doubles, format.Keeps x) := by
  refine ⟨load_eq_ok_iff hc hformat, ?session, ?exact⟩
  case session =>
    rintro s rfl hsession
    obtain ⟨before, hsave⟩ := ConfigSession.saveTo_eq_ok hsession
    obtain ⟨_, _, _, _, _, hwrite⟩ := save_eq_ok hsave
    rw [← load_eq_ok_iff hc hformat hsave, ConfigSession.loadOrDefault,
      if_pos (Disk.exists?_of_writeText hwrite), ConfigSession.load]
    cases hload : load d' path with
    | error e => exact iff_of_false (fun h => by cases h) fun h => by cases h
    | ok c =>
      show Except.ok (⟨c, some path⟩ : ConfigSession) = .ok ⟨s.config, some path⟩ ↔ _
      rw [Except.ok.injEq, Except.ok.injEq, ConfigSession.mk.injEq, and_iff_left rfl]
  case exact =>
    intro hfault hexact x hx
    cases format with
    | json =>
      obtain ⟨a, ha⟩ := doubles_finite hfault x hx
      exact Json.reread?_of_isExact ha (hexact rfl x hx)
    | toml => trivial

/-- The digits of its height are too many for JSON. -/
def preciseConfig : Config := { generator := { safeZ := 9.365380466741291 } }

theorem saved_configs_loaded :
    (∃ d', ({} : Config).save {} "c.json" = .ok d' ∧ Config.load d' "c.json" = .ok {}) ∧
    (∃ d', preciseConfig.save {} "c.toml" = .ok d' ∧
      Config.load d' "c.toml" = .ok preciseConfig) ∧
    ∃ d', preciseConfig.save {} "c.json" = .ok d' ∧
      Config.load d' "c.json" ≠ .ok preciseConfig := by
  have hsaved (c : Config) (path : String) (h : (c.save {} path).isOk = true) :
      ∃ d', c.save {} path = .ok d' := by
    cases hsave : c.save {} path with
    | error e => rw [hsave] at h; cases h
    | ok d' => exact ⟨d', rfl⟩
  have hlimit : ({} : Config).analyzer.trajectoryLimit < wordSize := by decide
  have hlimit' : preciseConfig.analyzer.trajectoryLimit < wordSize := by decide
  have hjson : ConfigFormat.ofPath "c.json" = .ok .json := by decide +kernel
  have htoml : ConfigFormat.ofPath "c.toml" = .ok .toml := by decide +kernel
  have hexact : ∀ x ∈ ({} : Config).doubles, Json.IsExact x = true := by decide +kernel
  have hlost : ¬∀ x ∈ preciseConfig.doubles, ConfigFormat.json.Keeps x := by
    intro hkept
    have hread : Json.reread? 9.365380466741291 = some 9.365380466741291 :=
      hkept 9.365380466741291 (by simp [Config.doubles, GeneratorSettings.doubles, preciseConfig])
    exact absurd hread (by decide +kernel)
  obtain ⟨d₁, h₁⟩ := hsaved {} "c.json" (by decide +kernel)
  obtain ⟨d₂, h₂⟩ := hsaved preciseConfig "c.toml" (by decide +kernel)
  obtain ⟨d₃, h₃⟩ := hsaved preciseConfig "c.json" (by decide +kernel)
  obtain ⟨hdefault, _, hkeep⟩ := Config.round_trip hlimit hjson {} d₁ "/home"
  exact ⟨⟨d₁, h₁, (hdefault h₁).mpr (hkeep (by decide +kernel) fun _ => hexact)⟩,
    ⟨d₂, h₂, ((Config.round_trip hlimit' htoml {} d₂ "/home").1 h₂).mpr fun _ _ => trivial⟩,
    ⟨d₃, h₃, fun hload => hlost (((Config.round_trip hlimit' hjson {} d₃ "/home").1 h₃).mp hload)⟩⟩

end BasRelief
