import BasRelief.CommandLine.Run
import BasRelief.Proofs.Disk.Folders
import Mathlib.Order.Basic

/-!
# What a failed save leaves behind

Saving a configuration makes the folders of its file first and checks the configuration, the
format and the place afterwards. A failed save therefore keeps every file and every folder as it
was, but may leave folders behind that lead to a file which was never written.
-/

namespace BasRelief

/-! ### The folder of a file -/

/-- The path of the folder above. -/
def Path.parent (path : String) : String :=
  Path.ofNames (Path.isAbsolute path) (Path.steps path).dropLast

namespace Disk

/-- The folder above is there, or the path names none. -/
def HasParent (d : Disk) (path : String) : Prop :=
  (Path.steps path).dropLast = [] ∨ d.isFolder (Path.parent path) = true

/-- Folders are made all together or not at all. -/
def MakesAllOrNothing (d : Disk) (path : String) : Prop :=
  ∀ e, (d.makeParents path).2 = .error e → (d.makeParents path).1 = d

/-- A place on the way to the folder above. -/
def OnWayTo (d : Disk) (path : String) (place : Place) : Prop :=
  d.OnWay (Path.isAbsolute path) (Path.steps path).dropLast.reverse place

/-- The disk `d'` is `d` with what a failed save to a path left there. -/
structure LeftBehind (d : Disk) (path : String) (d' : Disk) : Prop where
  /-- All entries are kept, and new ones are folders on the way to the file. -/
  furnished : d.Furnished (d'.OnWayTo path) d'
  made : (d.makeParents path).2 = .ok () → d'.HasParent path
  /-- Nothing is left behind exactly if the folder was there before or could not be made. -/
  unchanged_iff : d.MakesAllOrNothing path →
    (d' = d ↔ d.HasParent path ∨ ∃ e, (d.makeParents path).2 = .error e)

section
variable {d : Disk} {path : String}

theorem makeParents_of_hasParent (h : d.HasParent path) : d.makeParents path = (d, .ok ()) := by
  unfold HasParent Path.parent at h
  unfold makeParents
  rcases hnames : (Path.steps path).dropLast.reverse with _ | ⟨name, above⟩
  · rfl
  · have hreverse := List.reverse_eq_iff.mp hnames
    rw [hreverse] at h
    refine makeFolders_of_isFolder (h.resolve_left fun hnone => ?_)
    cases List.reverse_eq_nil_iff.mp hnone

theorem hasParent_of_makeParents (h : (d.makeParents path).2 = .ok ()) :
    (d.makeParents path).1.HasParent path := by
  unfold makeParents at h ⊢
  unfold HasParent Path.parent
  rcases hnames : (Path.steps path).dropLast.reverse with _ | ⟨name, above⟩
  · exact .inl (List.reverse_eq_nil_iff.mp hnames)
  · rw [hnames] at h
    rw [List.reverse_eq_iff.mp hnames]
    exact .inr (isFolder_of_makeFolders h)

theorem leftBehind_makeParents (d : Disk) (path : String) :
    d.LeftBehind path (d.makeParents path).1 where
  furnished := furnished_makeFolders d _ _
  made := hasParent_of_makeParents
  unchanged_iff := by
    intro hatomic
    constructor
    · intro hsame
      rcases hmade : (d.makeParents path).2 with e | _
      · exact .inr ⟨e, rfl⟩
      · have hparent := hasParent_of_makeParents hmade
        rw [hsame] at hparent
        exact .inl hparent
    · rintro (hparent | ⟨e, hmade⟩)
      · rw [makeParents_of_hasParent hparent]
      · exact hatomic e hmade

end
end Disk

/-! ### Saving -/

namespace ConfigSession
variable {s : ConfigSession} {d d' : Disk} {path : String} {e : ConfigError}

/-- After the folders were made, a save that fails does nothing more. -/
theorem saveTo_eq_error (h : s.saveTo d path = (d', .error e)) : d' = (d.makeParents path).1 := by
  unfold saveTo at h
  rcases hmade : d.makeParents path with ⟨d₁, e₁ | _⟩
  · rw [hmade] at h
    exact (Prod.mk.inj h).1.symm
  · rw [hmade] at h
    dsimp only at h
    cases hsave : s.config.save d₁ path with
    | error e₂ =>
      rw [hsave] at h
      exact (Prod.mk.inj h).1.symm
    | ok d₂ =>
      rw [hsave] at h
      cases (Prod.mk.inj h).2

theorem leftBehind_of_saveTo (h : s.saveTo d path = (d', .error e)) : d.LeftBehind path d' :=
  saveTo_eq_error h ▸ d.leftBehind_makeParents path

theorem leftBehind_of_save (h : s.save d = (d', .error e)) :
    match s.path? with
    | some path => d.LeftBehind path d'
    | none => d' = d := by
  unfold save at h
  cases hpath : s.path? with
  | none =>
    rw [hpath] at h
    exact (Prod.mk.inj h).1.symm
  | some path =>
    rw [hpath] at h
    exact leftBehind_of_saveTo h

end ConfigSession

theorem CommandLine.leftBehind_of_initConfig {d d' : Disk} {path : String} {reply : Reply}
    (h : initConfig d path = (reply, d')) (hfailed : reply.exitCode ≠ 0) :
    d.LeftBehind path d' := by
  unfold initConfig at h
  rcases hsave : ({} : ConfigSession).saveTo d path with ⟨d₁, e | _⟩
  · rw [hsave] at h
    obtain ⟨_, rfl⟩ := Prod.mk.inj h
    exact ConfigSession.leftBehind_of_saveTo hsave
  · rw [hsave] at h
    obtain ⟨rfl, _⟩ := Prod.mk.inj h
    exact absurd rfl hfailed

/-- A failed save of a configuration, to a path, to the file it came from or from the command
line, leaves nothing behind but folders on the way to its file. -/
theorem failed_save_leaves_folders (d : Disk) :
    (∀ (s : ConfigSession) (path : String) (e : ConfigError) (d' : Disk),
      s.saveTo d path = (d', .error e) → d.LeftBehind path d') ∧
    (∀ (s : ConfigSession) (e : ConfigError) (d' : Disk), s.save d = (d', .error e) →
      match s.path? with
      | some path => d.LeftBehind path d'
      | none => d' = d) ∧
    (∀ (path : String) (reply : CommandLine.Reply) (d' : Disk),
      CommandLine.initConfig d path = (reply, d') → reply.exitCode ≠ 0 → d.LeftBehind path d') :=
  ⟨fun _ _ _ _ => ConfigSession.leftBehind_of_saveTo,
    fun _ _ _ => ConfigSession.leftBehind_of_save,
    fun _ _ _ => CommandLine.leftBehind_of_initConfig⟩

/-! ### A format that there is none of -/

theorem unknown_format_left_behind :
    ∃ d', ({} : ConfigSession).saveTo {} "new/c.yaml" =
        (d', .error (.unsupportedFormat "yaml")) ∧
      ({} : Disk).LeftBehind "new/c.yaml" d' := by
  have herror : (({} : ConfigSession).saveTo {} "new/c.yaml").2 =
      .error (.unsupportedFormat "yaml") := by decide +kernel
  have hsave : ({} : ConfigSession).saveTo {} "new/c.yaml" =
      ((({} : ConfigSession).saveTo {} "new/c.yaml").1, .error (.unsupportedFormat "yaml")) := by
    rw [← herror]
  exact ⟨_, hsave, (failed_save_leaves_folders {}).1 {} _ _ _ hsave⟩

/-- The folders of the path are there although the format is refused. -/
theorem unknown_format_makes_folder :
    (({} : ConfigSession).saveTo {} "new/c.yaml").2 = .error (.unsupportedFormat "yaml") ∧
    ({} : Disk).isFolder "new" = false ∧
    (({} : ConfigSession).saveTo {} "new/c.yaml").1.isFolder "new" = true := by
  decide +kernel

end BasRelief
