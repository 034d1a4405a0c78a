import BasRelief.Image.Standard
import BasRelief.Proofs.Config.Agreement
import BasRelief.Proofs.Job.Stamp

/-!
# What a pipeline remembers

A pipeline that was called any number of times answers like a fresh one that was given the last
image and the last size, and nothing else. An image that could not be loaded leaves no trace. The
stages before the first image say that there is none, but making a plan looks at the parameters of
the generator first.
-/

namespace BasRelief.Pipeline

/-! ### Calls -/

/-- What a pipeline is asked to do. An image is looked for on the disk of that moment. -/
inductive Call where
  | setImage (image : Image)
  | loadImage (d : Disk) (path : String)
  | withSize (size : TargetSize Float)
  | heightGrid (mode : GenerationMode)
  | activeMask
  | generate (time : String) (mode : GenerationMode)

inductive Answer where
  | done
  | loaded (result : Except GenerationError Unit)
  | grid (result : Except GenerationError (HeightGrid Float))
  | mask (result : Except GenerationError ActiveMask)
  | plan (result : Except GenerationError (Plan Float))

namespace Call

/-- The image that a call brings; a load that fails brings none. -/
def image? (lib : ImageLibrary) : Call → Option Image
  | setImage image => some image
  | loadImage d path => (Image.load lib d path).toOption
  | _ => none

def size? : Call → Option (TargetSize Float)
  | withSize size => some size
  | _ => none

end Call

attribute [ext] Pipeline

def ofSettings (settings : GeneratorSettings) : Pipeline := { settings := settings }

def after (lib : ImageLibrary) (p : Pipeline) : Call → Pipeline
  | .setImage image => p.setImage image
  | .loadImage d path => p.load (Image.load lib d path)
  | .withSize size => p.withSize size
  | _ => p

def answer (lib : ImageLibrary) (p : Pipeline) : Call → Answer
  | .setImage _ => .done
  | .loadImage d path => .loaded (((Image.load lib d path).map fun _ => ()).mapError .image)
  | .withSize _ => .done
  | .heightGrid mode => .grid (p.heightGrid lib mode)
  | .activeMask => .mask (p.activeMask lib)
  | .generate time mode => .plan (p.generate lib time mode)

/-- The pipeline after calls in a row, and its answer to each of them. -/
def run (lib : ImageLibrary) (p : Pipeline) : List Call → Pipeline × List Answer
  | [] => (p, [])
  | call :: calls => 
    (((p.after lib call).run lib calls).1,
      p.answer lib call :: ((p.after lib call).run lib calls).2)

/-! ### The last image and the last size -/

/-- What the last of the calls to bring something brought. -/
def latest? {β : Type} (brings : Call → Option β) (calls : List Call) : Option β :=
  calls.reverse.findSome? brings

/-- A pipeline that was given the last size and the last image of some calls, each at most once. -/
def recalled (lib : ImageLibrary) (settings : GeneratorSettings) (calls : List Call) : Pipeline :=
  let sized := match latest? Call.size? calls with
    | some size => (ofSettings settings).withSize size
    | none => ofSettings settings
  match latest? (Call.image? lib) calls with
  | some image => sized.setImage image
  | none => sized

section
variable {lib : ImageLibrary} {settings : GeneratorSettings} {calls : List Call}

theorem latest?_snoc {β : Type} (brings : Call → Option β) (calls : List Call) (call : Call) :
    latest? brings (calls ++ [call]) = (brings call).or (latest? brings calls) := by
  simp only [latest?, List.reverse_append, List.reverse_singleton, List.singleton_append,
    List.findSome?_cons]
  cases brings call <;> rfl

theorem isSome_latest?_iff {β : Type} {brings : Call → Option β} :
    (latest? brings calls).isSome = true ↔ ∃ call ∈ calls, (brings call).isSome = true := by
  simp only [latest?, List.findSome?_isSome_iff, List.mem_reverse]

theorem image?_recalled :
    (recalled lib settings calls).image? = latest? (Call.image? lib) calls := by
  unfold recalled
  cases latest? Call.size? calls <;> cases latest? (Call.image? lib) calls <;> rfl

theorem size_recalled :
    (recalled lib settings calls).size = (latest? Call.size? calls).getD {} := by
  unfold recalled
  cases latest? Call.size? calls <;> cases latest? (Call.image? lib) calls <;> rfl

theorem settings_recalled : (recalled lib settings calls).settings = settings := by
  unfold recalled
  cases latest? Call.size? calls <;> cases latest? (Call.image? lib) calls <;> rfl

/-! ### Calls in a row -/

theorem image?_after (lib : ImageLibrary) (p : Pipeline) (call : Call) :
    (p.after lib call).image? = (call.image? lib).or p.image? := by
  cases call with
  | loadImage d path =>
    rw [after, Call.image?]
    cases Image.load lib d path <;> rfl
  | _ => rfl

theorem size_after (lib : ImageLibrary) (p : Pipeline) (call : Call) :
    (p.after lib call).size = call.size?.getD p.size := by
  cases call with
  | loadImage d path =>
    rw [after]
    cases Image.load lib d path <;> rfl
  | _ => rfl

theorem settings_after (lib : ImageLibrary) (p : Pipeline) (call : Call) :
    (p.after lib call).settings = p.settings := by
  cases call with
  | loadImage d path =>
    rw [after]
    cases Image.load lib d path <;> rfl
  | _ => rfl

theorem run_append (lib : ImageLibrary) (p : Pipeline) (before later : List Call) :
    p.run lib (before ++ later) =
      (((p.run lib before).1.run lib later).1,
        (p.run lib before).2 ++ ((p.run lib before).1.run lib later).2) := by
  induction before generalizing p with
  | nil => rfl
  | cons call before ih => rw [List.cons_append, run, ih, run, List.cons_append]

theorem length_run (lib : ImageLibrary) (p : Pipeline) (calls : List Call) :
    (p.run lib calls).2.length = calls.length := by
  induction calls generalizing p with
  | nil => rfl
  | cons call calls ih => rw [run, List.length_cons, List.length_cons, ih]

theorem recalled_snoc (lib : ImageLibrary) (settings : GeneratorSettings) (calls : List Call)
    (call : Call) :
    recalled lib settings (calls ++ [call]) = (recalled lib settings calls).after lib call := by
  apply Pipeline.ext
  · rw [settings_after, settings_recalled, settings_recalled]
  · rw [size_after, size_recalled, size_recalled, latest?_snoc, Option.getD_or]
  · rw [image?_after, image?_recalled, image?_recalled, latest?_snoc]

/-- The induction is on the calls from the last one backwards, as what counts is the latest. -/
theorem run_eq_recalled (lib : ImageLibrary) (settings : GeneratorSettings) (calls : List Call) :
    ((ofSettings settings).run lib calls).1 = recalled lib settings calls := by
  induction calls using List.reverseRecOn with
  | nil => rfl
  | append_singleton calls call ih => rw [run_append, recalled_snoc, ← ih]; rfl

theorem getElem?_answers (lib : ImageLibrary) (settings : GeneratorSettings)
    (before later : List Call) (call : Call) :
    ((ofSettings settings).run lib (before ++ call :: later)).2[before.length]? =
      some ((recalled lib settings before).answer lib call) := by
  rw [run_append, List.getElem?_append_right (by rw [length_run]), length_run, Nat.sub_self,
    run_eq_recalled]
  rfl

end

/-! ### History -/

/-- What a pipeline keeps of the calls that it has answered. -/
structure Remembers (lib : ImageLibrary) (settings : GeneratorSettings) (calls : List Call) :
    Prop where
  keepsImage : ((ofSettings settings).run lib calls).1.image? = latest? (Call.image? lib) calls
  keepsSize : ((ofSettings settings).run lib calls).1.size = (latest? Call.size? calls).getD {}
  keepsSettings : ((ofSettings settings).run lib calls).1.settings = settings
  ready : ((ofSettings settings).run lib calls).1.isReady = true ↔
    ∃ call ∈ calls, (call.image? lib).isSome = true
  unloaded : ∀ d path e, Image.load lib d path = .error e →
    ((ofSettings settings).run lib (calls ++ [.loadImage d path])).1 =
      ((ofSettings settings).run lib calls).1
  /-- Each call is answered as by a pipeline that has only the last image and size before it. -/
  answers : ∀ before call later, calls = before ++ call :: later →
    ((ofSettings settings).run lib calls).2[before.length]? =
      some ((recalled lib settings before).answer lib call)
  /-- The same of plans that the other pipeline makes at another time. -/
  undated : ∀ time time' mode,
    SameUndated (((ofSettings settings).run lib calls).1.generate lib time mode)
      ((recalled lib settings calls).generate lib time' mode)

theorem remembers_last_image_and_size (lib : ImageLibrary) (settings : GeneratorSettings)
    (calls : List Call) : Remembers lib settings calls where
  keepsImage := by rw [run_eq_recalled, image?_recalled]
  keepsSize := by rw [run_eq_recalled, size_recalled]
  keepsSettings := by rw [run_eq_recalled, settings_recalled]
  ready := by
    rw [isReady, run_eq_recalled, image?_recalled, isSome_latest?_iff]
  unloaded := by
    intro d path e hload
    rw [run_append]
    show (((ofSettings settings).run lib calls).1.load (Image.load lib d path)) = _
    rw [hload, load_error]
  answers := by
    rintro before call later rfl
    exact getElem?_answers lib settings before later call
  undated := by
    intro time time' mode
    rw [run_eq_recalled]
    exact generate_undated lib _ time time' mode

/-! ### Before the first image -/

def noImage : GenerationError := .notReady "no image loaded"

/-- How the stages of a pipeline answer that has no image. -/
structure Unready (lib : ImageLibrary) (p : Pipeline) : Prop where
  grid : ∀ mode, p.heightGrid lib mode = .error noImage
  mask : p.activeMask lib = .error noImage
  plan : ∀ time mode, p.settings.toolpath.fault? = none → p.generate lib time mode = .error noImage
  /-- Parameters that no generator accepts are told before the missing image is. -/
  refused : ∀ time mode e, p.settings.toolpath.fault? = some e →
    p.generate lib time mode = .error (.parameter e)

theorem generate_of_fault {lib : ImageLibrary} {p : Pipeline} {e : ParameterError Float}
    (h : p.settings.toolpath.fault? = some e) (time : String) (mode : GenerationMode) :
    p.generate lib time mode = .error (.parameter e) := by
  rw [generate, Generator.ofParameters_eq_error h]
  rfl

theorem generate_of_accepted {lib : ImageLibrary} {p : Pipeline}
    (h : p.settings.toolpath.fault? = none) (time : String) (mode : GenerationMode) :
    p.generate lib time mode =
      match mode with
      | .binary total => (p.activeMask lib).bind fun mask =>
          ((⟨_, h⟩ : Generator Float).multiPass time mask total).mapError .ofPasses
      | mode => (p.heightGrid lib mode).map ((⟨_, h⟩ : Generator Float).singlePass time) := by
  rw [generate, Generator.ofParameters_eq_ok h]
  cases mode with
  | color | grayscale maxDepth enhancement => rfl
  | binary total => rfl

theorem unready_of_image? {lib : ImageLibrary} {p : Pipeline} (h : p.image? = none) :
    p.Unready lib := by
  have himage : p.image = .error noImage := by rw [image, h]; rfl
  have hgrid (mode : GenerationMode) : p.heightGrid lib mode = .error noImage := by
    rw [heightGrid, himage]
    rfl
  have hmask : p.activeMask lib = .error noImage := by
    rw [activeMask, himage]
    rfl
  refine ⟨hgrid, hmask, fun time mode haccepted => ?_, fun time mode e hfault => ?_⟩
  · rw [generate_of_accepted haccepted]
    cases mode with
    | color | grayscale maxDepth enhancement =>
      dsimp only
      rw [hgrid]
      rfl
    | binary total =>
      dsimp only
      rw [hmask]
      rfl
  · exact generate_of_fault hfault time mode

/-- Until an image was set or loaded, grids and masks are refused for want of it, and so are plans
unless the parameters of the generator are refused. -/
theorem unready_before_image {lib : ImageLibrary} {calls : List Call}
    (h : ∀ call ∈ calls, call.image? lib = none) (settings : GeneratorSettings) :
    ((ofSettings settings).run lib calls).1.Unready lib ∧
      ((ofSettings settings).run lib calls).1.settings = settings := by
  have hlatest : latest? (Call.image? lib) calls = none := by
    rw [latest?, List.findSome?_eq_none_iff]
    exact fun call hcall => h call (List.mem_reverse.mp hcall)
  rw [run_eq_recalled]
  exact ⟨unready_of_image? (image?_recalled.trans hlatest), settings_recalled⟩

/-- A size was set and an image looked for that is not there. -/
def fruitlessCalls : List Call := [.withSize { width := some 20 }, .loadImage {} "missing.png"]

theorem fruitlessCalls_unready :
    (∀ call ∈ fruitlessCalls, call.image? .standard = none) ∧
    ((ofSettings {}).run .standard fruitlessCalls).1.generate .standard "2026-01-01 00:00:00 UTC"
      .color = .error noImage := by
  have hnone : ∀ call ∈ fruitlessCalls, call.image? .standard = none := by
    intro call hcall
    simp only [fruitlessCalls, List.mem_cons, List.not_mem_nil, or_false] at hcall
    obtain rfl | rfl := hcall
    · rfl
    · rfl
  obtain ⟨hunready, hsettings⟩ := unready_before_image hnone {}
  refine ⟨hnone, hunready.plan _ _ ?_⟩
  rw [hsettings]
  decide +kernel

/-- Nothing is cut at a feed of zero. -/
def idleSettings : GeneratorSettings := { cutFeed := 0 }

/-- A pipeline without an image answers with another error than that. -/
theorem idleSettings_answered_otherwise :
    (ofSettings idleSettings).image? = none ∧
    (ofSettings idleSettings).generate .standard "2026-01-01 00:00:00 UTC" .color =
      .error (.parameter (notPositive "cut_feed" 0)) ∧
    (ofSettings idleSettings).generate .standard "2026-01-01 00:00:00 UTC" .color ≠
      .error noImage := by
  have hfault : idleSettings.toolpath.fault? = some (notPositive "cut_feed" 0) := by decide +kernel
  have hunready : (ofSettings idleSettings).Unready .standard := unready_of_image? rfl
  have hanswer := hunready.refused "2026-01-01 00:00:00 UTC" .color _ hfault
  refine ⟨rfl, hanswer, ?_⟩
  rw [hanswer]
  intro h
  cases h

end BasRelief.Pipeline
