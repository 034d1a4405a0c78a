import BasRelief.Proofs.Disk.ReadBack

/-!
# Places of files

A path means a file at a place. When files are written at some places, a path to another place
leads there as before and finds what it found before. What may change is why a path leads
nowhere: a name that was missing may now be a file, which is no folder either.
-/

namespace BasRelief.Disk

/-- The place of the file that a path means, whether it is there or not. A path that ends in a
slash means no file. -/
def filePlace? (d : Disk) (path : String) : Option Place :=
  if Path.endsInSlash path then none
  else
    match d.locate path with
    | .ok (.named folder name) => some (folder ++ [name])
    | _ => none

/-- The places that names lead through; the walk ends where no folder is, or at a sealed one. -/
def visits (d : Disk) : Place → List String → List Place
  | _, [] => []
  | folder, name :: rest =>
    if d.isSealed folder then []
    else
      match goal folder name with
      | .folder place => visits d place rest
      | .named folder name =>
        (folder ++ [name]) ::
          match d.child folder name with
          | .ok (some e) => if e.isFolder then visits d (folder ++ [name]) rest else []
          | _ => []

/-- The places that a path takes for folders. -/
def passes (d : Disk) (path : String) : List Place :=
  d.visits (d.start path) (Path.names path).dropLast

/-- A disk that came out of `d` by writing files at some places. -/
structure Grown (d : Disk) (written : Place → Prop) (d' : Disk) : Prop where
  here : d'.here = d.here
  kept : ∀ place, ¬written place → d'.get? place = d.get? place
  files : ∀ place, written place →
    ¬d.hasFolder place = true ∧ ∃ content, d'.get? place = some (.file content)

/-! ### Growing -/

theorem Grown.refl (d : Disk) : d.Grown (fun _ => False) d where
  here := rfl
  kept := fun _ _ => rfl
  files := fun _ h => h.elim

theorem Grown.put {d d' : Disk} {written : Place → Prop} (h : d.Grown written d') {place : Place}
    (root : place ≠ []) (before : ¬d.hasFolder place = true) (content : Content) :
    d.Grown (fun other => other = place ∨ written other) (d'.put place (.file content)) where
  here := h.here
  kept := by
    intro other hother
    obtain ⟨hne, hnot⟩ := not_or.1 hother
    rw [get?_put_of_ne d' hne, h.kept other hnot]
  files := by
    intro other hother
    by_cases hplace : other = place
    · subst hplace
      exact ⟨before, content, get?_put_self d' root _⟩
    · obtain ⟨hfolder, found, hfound⟩ := h.files other (hother.resolve_left hplace)
      exact ⟨hfolder, found, by rw [get?_put_of_ne d' hplace, hfound]⟩

theorem Grown.congr {d d' : Disk} {written written' : Place → Prop} (h : d.Grown written d')
    (hiff : ∀ place, written place ↔ written' place) : d.Grown written' d' where
  here := h.here
  kept := fun place hplace => h.kept place (mt (hiff place).1 hplace)
  files := fun place hplace => h.files place ((hiff place).2 hplace)

/-! ### Following a path on a grown disk -/

section Grown
variable {d d' : Disk} {written : Place → Prop}

/-- Neither before nor afterwards is a folder at a written place. -/
theorem Grown.not_hasFolder (h : d.Grown written d') {place : Place} (hwritten : written place) :
    ¬d.hasFolder place = true ∧ ¬d'.hasFolder place = true := by
  obtain ⟨hbefore, content, hafter⟩ := h.files place hwritten
  refine ⟨hbefore, fun hplace => ?_⟩
  obtain ⟨e, hentry, hfolder⟩ := hasFolder_iff.mp hplace
  obtain rfl := Option.some.inj (hafter.symm.trans hentry)
  cases hfolder

theorem Grown.keepsFolders (h : d.Grown written d') : d.KeepsFolders d' where
  here := h.here
  kept := by
    intro place e hfolder hentry
    rw [h.kept place fun hwritten => (h.not_hasFolder hwritten).1
      (hasFolder_iff.mpr ⟨e, hentry, hfolder⟩), hentry]
  sealed := by
    intro place hsealed
    have hkept := h.kept place fun hwritten =>
      (h.not_hasFolder hwritten).2 (hasFolder_of_isSealed hsealed)
    exact isSealed_iff.mpr (hkept ▸ isSealed_iff.mp hsealed)

/-- No folder was made either. -/
theorem Grown.keepsFolders_symm (h : d.Grown written d') : d'.KeepsFolders d where
  here := h.here.symm
  kept := by
    intro place e hfolder hentry
    rw [← h.kept place fun hwritten => (h.not_hasFolder hwritten).2
      (hasFolder_iff.mpr ⟨e, hentry, hfolder⟩), hentry]
  sealed place hsealed := (h.keepsFolders.isSealed_eq place).trans hsealed

theorem Grown.child_kept (h : d.Grown written d') {folder : Place} {name : String}
    (hkept : ¬written (folder ++ [name])) : d'.child folder name = d.child folder name := by
  rw [child, child, h.kept _ hkept]

/-- Names that pass no written place lead to the same folder, or fail for the same cause. -/
theorem Grown.descend_eq_of_visits (h : d.Grown written d') (folder : Place) (names : List String)
    (hvisits : ∀ place ∈ d.visits folder names, ¬written place) :
    d'.descend folder names = d.descend folder names := by
  induction names generalizing folder with
  | nil => rfl
  | cons name names ih =>
    rw [visits] at hvisits
    rw [descend, descend, h.keepsFolders.isSealed_eq]
    by_cases hsealed : d.isSealed folder = true
    · rw [if_pos hsealed, if_pos hsealed]
    rw [if_neg hsealed] at hvisits
    rw [if_neg hsealed, if_neg hsealed]
    generalize goal folder name = next at hvisits ⊢
    cases next with
    | folder place => exact ih place hvisits
    | named folder name =>
      dsimp only at hvisits ⊢
      rw [h.child_kept (hvisits _ List.mem_cons_self)]
      rcases hchild : d.child folder name with e | _ | e
      · rfl
      · rfl
      · rw [hchild] at hvisits
        dsimp only at hvisits ⊢
        by_cases hfolder : e.isFolder = true
        · rw [if_pos hfolder] at hvisits
          rw [if_pos hfolder, if_pos hfolder]
          exact ih _ fun place hplace => hvisits place (List.mem_cons_of_mem _ hplace)
        · rw [if_neg hfolder, if_neg hfolder]

theorem Grown.locate_eq_of_passes (h : d.Grown written d') {path : String}
    (hpasses : ∀ place ∈ d.passes path, ¬written place) : d'.locate path = d.locate path := by
  unfold locate
  simp only [h.keepsFolders.start_eq, h.descend_eq_of_visits _ _ hpasses,
    h.keepsFolders.isSealed_eq]

/-! ### Files -/

/-- A path leads to the same place, or nowhere. -/
theorem Grown.locate_cases (h : d.Grown written d') (path : String) :
    (∃ goal, d.locate path = .ok goal ∧ d'.locate path = .ok goal) ∨
      ∃ e e', d.locate path = .error e ∧ d'.locate path = .error e' := by
  cases hd : d.locate path with
  | ok goal => exact .inl ⟨goal, rfl, h.keepsFolders.locate_eq_ok hd⟩
  | error e =>
    cases hd' : d'.locate path with
    | error e' => exact .inr ⟨e, e', rfl, rfl⟩
    | ok goal => cases hd.symm.trans (h.keepsFolders_symm.locate_eq_ok hd')

theorem filePlace?_named {d : Disk} {path : String} {folder : Place} {name : String}
    (hslash : Path.endsInSlash path = false) (h : d.locate path = .ok (.named folder name)) :
    d.filePlace? path = some (folder ++ [name]) := by
  simp only [filePlace?, hslash, Bool.false_eq_true, if_false, h]

/-- A path that ends in a slash finds a folder or nothing. -/
theorem find_slash {d : Disk} {path : String} {folder : Place} {name : String}
    (hslash : Path.endsInSlash path = true) (h : d.locate path = .ok (.named folder name))
    (hnone : ∀ e, d.child folder name = .ok (some e) → ¬e.isFolder = true) :
    (d.find path).toOption = none := by
  simp only [find, h, bind, Except.bind, hslash]
  rcases hc : d.child folder name with err | _ | e
  · rfl
  · rfl
  · simp only [Bool.of_not_eq_true (hnone e hc)]
    rfl

/-- A path to no written place finds what it found before, or finds nothing as before. -/
theorem Grown.find_eq (h : d.Grown written d') {path : String}
    (hkept : ∀ place, d.filePlace? path = some place → ¬written place) :
    (d'.find path).toOption = (d.find path).toOption := by
  obtain ⟨goal, hd, hd'⟩ | ⟨e, e', hd, hd'⟩ := h.locate_cases path
  · cases goal with
    | folder place =>
      simp only [find, hd, hd', bind, Except.bind, h.keepsFolders.folderAt_eq]
    | named folder name =>
      cases hslash : Path.endsInSlash path with
      | false =>
        have hchild := h.child_kept (hkept _ (filePlace?_named hslash hd))
        simp only [find, hd, hd', bind, Except.bind, hchild]
      | true =>
        -- such a path finds a folder or nothing, and the folders are the same
        by_cases hfound : ∃ e, d.child folder name = .ok (some e) ∧ e.isFolder = true
        · obtain ⟨e, hchild, hfolder⟩ := hfound
          rw [find_of_folder hfolder hd hchild, find_of_folder hfolder hd'
            (h.keepsFolders.child_eq_folder hfolder hchild)]
        · have hnone (e : Entry) (hchild : d.child folder name = .ok (some e)) :
              ¬e.isFolder = true := fun hfolder => hfound ⟨e, hchild, hfolder⟩
          have hnone' (e : Entry) (hchild : d'.child folder name = .ok (some e)) :
              ¬e.isFolder = true := fun hfolder =>
            hnone e (h.keepsFolders_symm.child_eq_folder hfolder hchild) hfolder
          rw [find_slash hslash hd hnone, find_slash hslash hd' hnone']
  · simp only [find, hd, hd', bind, Except.bind]
    rfl

theorem file?_eq_toOption (d : Disk) (path : String) :
    d.file? path = (d.find path).toOption.bind fun
      | .file content => some content
      | _ => none := by
  unfold file?
  rcases d.find path with err | e
  · rfl
  · cases e <;> rfl

theorem Grown.file?_eq (h : d.Grown written d') {path : String}
    (hkept : ∀ place, d.filePlace? path = some place → ¬written place) :
    d'.file? path = d.file? path := by
  rw [file?_eq_toOption, file?_eq_toOption, h.find_eq hkept]

/-! ### Targets -/

/-- A path to no written place can be written to as before, or not at all as before. -/
theorem Grown.target_eq (h : d.Grown written d') {path : String}
    (hkept : ∀ place, d.filePlace? path = some place → ¬written place) :
    (d'.target path).toOption = (d.target path).toOption := by
  obtain ⟨goal, hd, hd'⟩ | ⟨e, e', hd, hd'⟩ := h.locate_cases path
  · cases goal with
    | folder place => simp only [target, hd, hd', bind, Except.bind]
    | named folder name =>
      cases hslash : Path.endsInSlash path with
      | false =>
        have hchild := h.child_kept (hkept _ (filePlace?_named hslash hd))
        simp only [target, hd, hd', bind, Except.bind, hchild]
      | true => simp only [target, hd, hd', bind, Except.bind, hslash]; rfl
  · simp only [target, hd, hd', bind, Except.bind]
    rfl

theorem Grown.target_eq_of_passes (h : d.Grown written d') {path : String}
    (hkept : ∀ place, d.filePlace? path = some place → ¬written place)
    (hpasses : ∀ place ∈ d.passes path, ¬written place) : d'.target path = d.target path := by
  have hd' := h.locate_eq_of_passes hpasses
  cases hd : d.locate path with
  | error e => simp only [target, hd', hd, bind, Except.bind]
  | ok goal =>
    cases goal with
    | folder place => simp only [target, hd', hd, bind, Except.bind]
    | named folder name =>
      cases hslash : Path.endsInSlash path with
      | false =>
        have hchild := h.child_kept (hkept _ (filePlace?_named hslash hd))
        simp only [target, hd', hd, bind, Except.bind, hchild]
      | true => simp only [target, hd', hd, bind, Except.bind, hslash]; rfl

theorem filePlace?_of_target {d : Disk} {path : String} {place : Place} {content : Option Content}
    (h : d.target path = .ok (place, content)) :
    d.filePlace? path = some place ∧ place ≠ [] ∧ ¬d.hasFolder place = true := by
  have hfolder := not_hasFolder_of_target h
  obtain ⟨root, -⟩ := get?_target h
  obtain ⟨folder, name, hlocate, hslash, rfl, -⟩ := target_eq_ok h
  exact ⟨filePlace?_named hslash hlocate, root, hfolder⟩

end Grown

/-- A write changes the file that its path means. -/
theorem Grown.of_write {d d' : Disk} {path : String} {bytes : List UInt8}
    (h : d.write path bytes = .ok d') :
    d.Grown (fun place => d.filePlace? path = some place) d' := by
  obtain ⟨place, content, htarget, rfl⟩ := eq_put_of_write h
  obtain ⟨hplace, root, hfolder⟩ := filePlace?_of_target htarget
  refine ((Grown.refl d).put root hfolder (.octets bytes)).congr fun other => ?_
  rw [hplace, or_false, Option.some.injEq, eq_comm]

end BasRelief.Disk
