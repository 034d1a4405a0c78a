import BasRelief.Proofs.Field.Cells
import BasRelief.Proofs.Job.DiskEffects
import BasRelief.Proofs.Job.GenerateAnalyze
import BasRelief.Proofs.Pipeline.History
import BasRelief.Proofs.Results
import BasRelief.Proofs.Toolpath.PassCuts
import BasRelief.Proofs.Toolpath.PassDepths
import BasRelief.Proofs.Toolpath.SurfaceScan

/-!
# When a plan is made

With an image at hand a plan is made exactly if the parameters, the size and the depth are accepted
where they are looked at first. The later checks, of the cells of a grid or a mask, refuse nothing.
-/

namespace BasRelief

/-! ### Modes -/

namespace GenerationMode

/-- A depth that the mode can make heights or passes of. -/
def HasDepth : GenerationMode → Prop
  | color => True
  | grayscale maxDepth _ =>
    Scalar.isFinite maxDepth = true ∧ Scalar.atMost Scalar.zero maxDepth = true
  | binary total => Scalar.isFinite total = true

/-- The passes of the mode fit in a list. -/
def HasListablePasses (limit : Float) : GenerationMode → Prop
  | binary total =>
    Scalar.atMost Scalar.zero total = false → passCount (-total) limit ≤ longestList
  | _ => True

/-- The heights that a mode gives to an image brought to the sides of a grid. -/
def field? (lib : ImageLibrary) (image : Image) :
    GenerationMode → Option (GridSides → HeightGrid Float)
  | color => some (Field.colors lib image)
  | grayscale maxDepth enhancement => some (Field.relief lib image maxDepth enhancement)
  | binary _ => none

theorem size_field {lib : ImageLibrary} (hresizes : lib.Resizes) (hkeeps : lib.KeepsSizes)
    {image : Image} {mode : GenerationMode} {field : GridSides → HeightGrid Float}
    (h : mode.field? lib image = some field) (s : GridSides) :
    (field s).values.size = (field s).rows * (field s).cols := by
  cases mode with
  | color =>
    obtain rfl := Option.some.inj h
    exact Field.size_colors hresizes image s
  | grayscale maxDepth enhancement =>
    obtain rfl := Option.some.inj h
    exact Field.size_relief hresizes image hkeeps maxDepth enhancement s
  | binary total => cases h

theorem hasDepth_grayscale_iff {maxDepth : Float} {enhancement : Enhancement} :
    (grayscale maxDepth enhancement).HasDepth ↔ Field.depthFault? maxDepth = none := by
  show (_ ∧ _) ↔ _
  rw [Field.depthFault?, ← Bool.and_eq_true]
  split <;> simp_all

end GenerationMode

namespace Pipeline

/-! ### Stages with an image -/

section
variable {lib : ImageLibrary} {p : Pipeline} {image : Image} {mode : GenerationMode}
  {field : GridSides → HeightGrid Float}

theorem image_eq_ok (himage : p.image? = some image) : p.image = .ok image := by
  rw [Pipeline.image, himage]

theorem heightGrid_eq (hresizes : lib.Resizes) (hkeeps : lib.KeepsSizes)
    (himage : p.image? = some image) (hfield : mode.field? lib image = some field)
    (hdepth : mode.HasDepth) :
    p.heightGrid lib mode =
      ((Field.sides p.settings.stepsPerMm image p.size).map field).mapError .parameter := by
  rw [heightGrid, image_eq_ok himage]
  cases mode with
  | color =>
    obtain rfl := Option.some.inj hfield
    rw [← Field.colorGrid_eq hresizes]
    rfl
  | grayscale maxDepth enhancement =>
    obtain rfl := Option.some.inj hfield
    rw [← Field.grayscaleGrid_eq hresizes image _ _ hkeeps
      (GenerationMode.hasDepth_grayscale_iff.mp hdepth)]
    rfl
  | binary total => cases hfield

theorem heightGrid_of_no_depth (himage : p.image? = some image) (h : ¬mode.HasDepth) :
    ∃ e, p.heightGrid lib mode = .error e := by
  rw [heightGrid, image_eq_ok himage]
  cases mode with
  | color => exact absurd trivial h
  | grayscale maxDepth enhancement =>
    obtain ⟨e, he⟩ := Option.ne_none_iff_exists'.mp (mt GenerationMode.hasDepth_grayscale_iff.mpr h)
    refine ⟨.parameter e, ?_⟩
    show (Field.grayscaleGrid lib _ image p.size maxDepth enhancement).mapError _ = _
    rw [Field.grayscaleGrid_of_fault lib image _ _ he]
    rfl
  | binary total => exact ⟨_, rfl⟩

theorem activeMask_eq (hresizes : lib.Resizes) (himage : p.image? = some image) :
    p.activeMask lib =
      ((Field.sides p.settings.stepsPerMm image p.size).map
        (Field.cells lib image p.settings.threshold)).mapError .parameter := by
  rw [activeMask, image_eq_ok himage, ← Field.activeMask_eq hresizes]
  rfl

theorem exists_heightGrid_iff (hresizes : lib.Resizes) (hkeeps : lib.KeepsSizes)
    (himage : p.image? = some image)
    (hfield : mode.field? lib image = some field) :
    (∃ grid, p.heightGrid lib mode = .ok grid) ↔
      (∃ s, Field.sides p.settings.stepsPerMm image p.size = .ok s) ∧ mode.HasDepth := by
  by_cases hdepth : mode.HasDepth
  · rw [heightGrid_eq hresizes hkeeps himage hfield hdepth, exists_mapError_eq_ok_iff,
      exists_map_eq_ok_iff, and_iff_left hdepth]
  · obtain ⟨e, he⟩ := heightGrid_of_no_depth himage hdepth
    rw [he]
    constructor
    · rintro ⟨grid, h⟩
      cases h
    · intro h
      exact absurd h.2 hdepth

/-! ### Plans -/

/-- What a plan takes: parameters, a size and a depth that are accepted where they are looked at,
and passes that fit in a list. -/
structure Admissible (p : Pipeline) (image : Image) (mode : GenerationMode) : Prop where
  parameters : p.settings.toolpath.fault? = none
  sides : ∃ s, Field.sides p.settings.stepsPerMm image p.size = .ok s
  depth : mode.HasDepth
  passes : mode.HasListablePasses p.settings.maxDepthPerPass

theorem generate_of_field (haccepted : p.settings.toolpath.fault? = none)
    (hfield : mode.field? lib image = some field) (time : String) :
    p.generate lib time mode =
      (p.heightGrid lib mode).map ((⟨_, haccepted⟩ : Generator Float).singlePass time) := by
  rw [generate_of_accepted haccepted]
  cases mode with
  | color | grayscale maxDepth enhancement => rfl
  | binary total => cases hfield

theorem hasListablePasses_of_field (hfield : mode.field? lib image = some field) (limit : Float) :
    mode.HasListablePasses limit := by
  cases mode with
  | color | grayscale maxDepth enhancement => trivial
  | binary total => cases hfield

theorem exists_generate_of_field_iff (hresizes : lib.Resizes) (hkeeps : lib.KeepsSizes)
    (himage : p.image? = some image)
    (hfield : mode.field? lib image = some field) (haccepted : p.settings.toolpath.fault? = none)
    (time : String) :
    (∃ plan, p.generate lib time mode = .ok plan) ↔ p.Admissible image mode := by
  rw [generate_of_field haccepted hfield, exists_map_eq_ok_iff,
    exists_heightGrid_iff hresizes hkeeps himage hfield]
  constructor
  · rintro ⟨hsides, hdepth⟩
    exact ⟨haccepted, hsides, hdepth, hasListablePasses_of_field hfield _⟩
  · intro h
    exact ⟨h.sides, h.depth⟩

theorem exists_generate_binary_iff (hresizes : lib.Resizes) (himage : p.image? = some image)
    (haccepted : p.settings.toolpath.fault? = none) (time : String) (total : Float) :
    (∃ plan, p.generate lib time (.binary total) = .ok plan) ↔
      p.Admissible image (.binary total) := by
  rw [generate_of_accepted haccepted]
  dsimp only
  rw [activeMask_eq hresizes himage]
  rcases hsides : Field.sides p.settings.stepsPerMm image p.size with e | s
  · constructor
    · rintro ⟨plan, h⟩
      cases h
    · intro h
      obtain ⟨s, hs⟩ := h.sides
      cases hsides.symm.trans hs
  · have hlimit := (⟨_, haccepted⟩ : Generator Float).limit_pos
    show (∃ plan, (Generator.multiPass _ time _ total).mapError _ = .ok plan) ↔ _
    rw [exists_mapError_eq_ok_iff, Generator.multiPass, exists_map_eq_ok_iff,
      exists_passDepths_iff hlimit]
    constructor
    · rintro ⟨hfinite, hlist⟩
      exact ⟨haccepted, ⟨s, hsides⟩, hfinite, hlist⟩
    · intro h
      exact ⟨h.depth, h.passes⟩

theorem exists_generate_iff (hresizes : lib.Resizes) (hkeeps : lib.KeepsSizes)
    (himage : p.image? = some image) (time : String)
    (mode : GenerationMode) :
    (∃ plan, p.generate lib time mode = .ok plan) ↔ p.Admissible image mode := by
  rcases hfault : p.settings.toolpath.fault? with _ | e
  · cases mode with
    | color | grayscale maxDepth enhancement =>
      exact exists_generate_of_field_iff hresizes hkeeps himage rfl hfault time
    | binary total => exact exists_generate_binary_iff hresizes himage hfault time total
  · rw [generate_of_fault hfault]
    constructor
    · rintro ⟨plan, h⟩
      cases h
    · intro h
      cases hfault.symm.trans h.parameters

/-! ### Where a plan comes from -/

/-- How a plan came out of the stages before it. -/
inductive Derives (lib : ImageLibrary) (p : Pipeline) (time : String) :
    GenerationMode → Plan Float → Prop where
  | single {mode : GenerationMode} {g : Generator Float} {grid : HeightGrid Float}
      (generator : Generator.ofParameters p.settings.toolpath = .ok g)
      (heights : p.heightGrid lib mode = .ok grid)
      (cutCount : (g.singlePass time grid).cutCount = grid.rows * grid.cols) :
      Derives lib p time mode (g.singlePass time grid)
  | multi {total : Float} {g : Generator Float} {mask : ActiveMask} {plan : Plan Float}
      (generator : Generator.ofParameters p.settings.toolpath = .ok g)
      (cells : p.activeMask lib = .ok mask)
      (passes : g.multiPass time mask total = .ok plan)
      (cutCount : plan.cutCount = plan.passes * mask.activeCount) :
      Derives lib p time (.binary total) plan

theorem derives_single (hresizes : lib.Resizes) (hkeeps : lib.KeepsSizes)
    (himage : p.image? = some image) (hfield : mode.field? lib image = some field)
    (h : p.Admissible image mode) (time : String) {plan : Plan Float}
    (hplan : p.generate lib time mode = .ok plan) : p.Derives lib time mode plan := by
  obtain ⟨s, hsides⟩ := h.sides
  have hheights : p.heightGrid lib mode = .ok (field s) := by
    rw [heightGrid_eq hresizes hkeeps himage hfield h.depth, hsides]
    rfl
  rw [generate_of_field h.parameters hfield, hheights] at hplan
  obtain rfl := Except.ok.inj hplan
  exact .single (Generator.ofParameters_eq_ok h.parameters) hheights
    (Generator.cutCount_singlePass _ time (GenerationMode.size_field hresizes hkeeps hfield s))

theorem derives_multi (hresizes : lib.Resizes) (himage : p.image? = some image) {total : Float}
    (h : p.Admissible image (.binary total)) (time : String) {plan : Plan Float}
    (hplan : p.generate lib time (.binary total) = .ok plan) :
    p.Derives lib time (.binary total) plan := by
  obtain ⟨s, hsides⟩ := h.sides
  have hcells : p.activeMask lib = .ok (Field.cells lib image p.settings.threshold s) := by
    rw [activeMask_eq hresizes himage, hsides]
    rfl
  rw [generate_of_accepted h.parameters] at hplan
  dsimp only at hplan
  rw [hcells] at hplan
  have hpasses := mapError_eq_ok_iff.mp hplan
  obtain ⟨depths, _, rfl⟩ := Generator.multiPass_eq_ok hpasses
  have hcovers := Generator.coversMask_planOfDepths p.settings.toolpath time
    (Field.size_cells hresizes image p.settings.threshold s) total depths
  exact .multi (Generator.ofParameters_eq_ok h.parameters) hcells hpasses hcovers.cutCount

theorem derives_of_generate (hresizes : lib.Resizes) (hkeeps : lib.KeepsSizes)
    (himage : p.image? = some image) (time : String)
    (mode : GenerationMode) (plan : Plan Float) (hplan : p.generate lib time mode = .ok plan) :
    p.Derives lib time mode plan := by
  have hadmissible := (exists_generate_iff hresizes hkeeps himage time mode).mp ⟨plan, hplan⟩
  cases mode with
  | color | grayscale maxDepth enhancement =>
    exact derives_single hresizes hkeeps himage rfl hadmissible time hplan
  | binary total => exact derives_multi hresizes himage hadmissible time hplan

end

/-! ### Generation -/

/-- An image looked for and a plan made, one call of a sized pipeline after the other. -/
def byHand (lib : ImageLibrary) (settings : GeneratorSettings) (time : String) (d : Disk)
    (path : String) (mode : GenerationMode) (size : TargetSize Float) :
    Except GenerationError (Plan Float) :=
  let sized := (ofSettings settings).withSize size
  match sized.answer lib (.loadImage d path) with
  | .loaded (.error e) => .error e
  | _ => (sized.after lib (.loadImage d path)).generate lib time mode

theorem generateFromFile_eq_byHand (lib : ImageLibrary) (settings : GeneratorSettings)
    (time : String) (d : Disk) (path : String) (mode : GenerationMode) (size : TargetSize Float) :
    generateFromFile lib settings time d path mode size =
      byHand lib settings time d path mode size := by
  rcases hload : Image.load lib d path with e | image
  · rw [Job.generateFromFile_of_unloaded hload]
    simp only [byHand, answer, hload]
    rfl
  · rw [Job.generateFromFile_of_loaded hload]
    simp only [byHand, answer, after, hload]
    rfl

/-- What a pipeline makes of the image that it has. -/
structure Generates (lib : ImageLibrary) (p : Pipeline) (image : Image) : Prop where
  succeeds : ∀ time mode, (∃ plan, p.generate lib time mode = .ok plan) ↔ p.Admissible image mode
  /-- Where the depth is accepted, only the size can be refused: no height is. -/
  grid : ∀ mode field, mode.field? lib image = some field → mode.HasDepth →
    p.heightGrid lib mode =
      ((Field.sides p.settings.stepsPerMm image p.size).map field).mapError .parameter
  mask : p.activeMask lib =
    ((Field.sides p.settings.stepsPerMm image p.size).map
      (Field.cells lib image p.settings.threshold)).mapError .parameter
  derives : ∀ time mode plan, p.generate lib time mode = .ok plan → p.Derives lib time mode plan

/-- With resampling and filters that give the sizes they should, a pipeline with an image makes a
plan exactly if its inputs are admissible, out of its own grid or mask. Making one from a file is
loading the image and making it. -/
theorem generation_succeeds_iff_admissible {lib : ImageLibrary} (hresizes : lib.Resizes)
    (hkeeps : lib.KeepsSizes) {p : Pipeline} {image : Image} (himage : p.image? = some image) :
    p.Generates lib image ∧
    ∀ settings time d path mode size,
      generateFromFile lib settings time d path mode size =
        byHand lib settings time d path mode size :=
  ⟨{ succeeds := exists_generate_iff hresizes hkeeps himage
     grid := fun _ _ hfield hdepth => heightGrid_eq hresizes hkeeps himage hfield hdepth
     mask := activeMask_eq hresizes himage
     derives := derives_of_generate hresizes hkeeps himage }, generateFromFile_eq_byHand lib⟩

def sketching : Pipeline := { settings := {}, image? := some sketch }

theorem sketching_admissible : sketching.Admissible sketch (.binary (-3)) where
  parameters := by decide +kernel
  sides := ⟨⟨2, 2⟩, by decide +kernel⟩
  depth := show Scalar.isFinite (-3 : Float) = true by decide +kernel
  passes := fun _ => show passCount (- -3 : Float) 2 ≤ longestList by decide +kernel

theorem sketching_generates :
    ImageLibrary.standard.Resizes ∧ ImageLibrary.standard.KeepsSizes ∧
    sketching.image? = some sketch ∧ sketching.Admissible sketch (.binary (-3)) ∧
    ∃ plan, sketching.generate .standard "2026-01-01 00:00:00 UTC" (.binary (-3)) = .ok plan ∧
      sketching.Derives .standard "2026-01-01 00:00:00 UTC" (.binary (-3)) plan := by
  have himage : sketching.image? = some sketch := rfl
  obtain ⟨hgenerates, _⟩ := generation_succeeds_iff_admissible ImageLibrary.standard_resizes
    ImageLibrary.standard_keepsSizes himage
  obtain ⟨plan, hplan⟩ := (hgenerates.succeeds "2026-01-01 00:00:00 UTC" (.binary (-3))).mpr
    sketching_admissible
  exact ⟨ImageLibrary.standard_resizes, ImageLibrary.standard_keepsSizes, himage,
    sketching_admissible, plan, hplan, hgenerates.derives _ _ plan hplan⟩

end Pipeline
end BasRelief
