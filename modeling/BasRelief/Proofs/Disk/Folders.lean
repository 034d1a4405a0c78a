import BasRelief.Proofs.Disk.Walks

/-!
# Folders that are made

Making the folders of a path keeps every entry of the disk and adds nothing but folders, at places
to which leading parts of the path then lead. It succeeds only with the whole path a folder, and
changes nothing where that was one before.
-/

namespace BasRelief.Disk

/-- The disk `d'` is `d` with new folders at some of the given places. -/
structure Furnished (d : Disk) (places : Place → Prop) (d' : Disk) : Prop where
  here : d'.here = d.here
  kept : ∀ place e, d.get? place = some e → d'.get? place = some e
  added : ∀ place, d'.get? place ≠ d.get? place → places place ∧ d'.get? place = some .folder

/-- A path stands for a name in a folder, which together are a place. -/
def LeadsTo (d : Disk) (path : String) (place : Place) : Prop :=
  ∃ folder name, d.locate path = .ok (.named folder name) ∧ place = folder ++ [name]

/-- A place that is reached by some names or by a leading part of them. The last name comes
first. -/
def OnWay (d : Disk) (absolute : Bool) (above : List String) (place : Place) : Prop :=
  ∃ names, names <:+ above ∧ d.LeadsTo (Path.ofNames absolute names.reverse) place

namespace Furnished
variable {d d₁ d₂ : Disk} {places places₁ places₂ : Place → Prop}

theorem refl (d : Disk) (places : Place → Prop) : d.Furnished places d where
  here := rfl
  kept _ _ h := h
  added _ h := absurd rfl h

theorem mono (h : d.Furnished places₁ d₁) (himp : ∀ place, places₁ place → places₂ place) :
    d.Furnished places₂ d₁ where
  here := h.here
  kept := h.kept
  added place hplace := (h.added place hplace).imp_left (himp place)

theorem trans (h₁ : d.Furnished places d₁) (h₂ : d₁.Furnished places d₂) :
    d.Furnished places d₂ where
  here := h₂.here.trans h₁.here
  kept place e h := h₂.kept place e (h₁.kept place e h)
  added := by
    intro place hplace
    by_cases hsame : d₁.get? place = d.get? place
    · exact h₂.added place (hsame ▸ hplace)
    · obtain ⟨hmade, hfolder⟩ := h₁.added place hsame
      exact ⟨hmade, h₂.kept place _ hfolder⟩

theorem put {place : Place} (root : place ≠ []) (free : d.get? place = none) :
    d.Furnished (· = place) (d.put place .folder) where
  here := rfl
  kept := by
    intro other e h
    have hne : other ≠ place := by
      rintro rfl
      cases free.symm.trans h
    rw [get?_put_of_ne d hne, h]
  added := by
    intro other hother
    have hplace : other = place :=
      Decidable.byContradiction fun hne => hother (get?_put_of_ne d hne _)
    exact ⟨hplace, by rw [hplace, get?_put_self d root]⟩

/-! ### Paths on a furnished disk -/

theorem keepsFolders (h : d.Furnished places d₁) : d.KeepsFolders d₁ where
  here := h.here
  kept place e _ hentry := h.kept place e hentry
  sealed := by
    intro place hsealed
    by_cases hsame : d₁.get? place = d.get? place
    · exact isSealed_iff.mpr (hsame ▸ isSealed_iff.mp hsealed)
    · -- what was made there is a folder that is not sealed
      cases (h.added place hsame).2.symm.trans (isSealed_iff.mp hsealed)

theorem leadsTo (h : d.Furnished places d₁) {path : String} {place : Place}
    (hplace : d.LeadsTo path place) : d₁.LeadsTo path place := by
  obtain ⟨folder, name, hlocate, heq⟩ := hplace
  exact ⟨folder, name, h.keepsFolders.locate_eq_ok hlocate, heq⟩

theorem onWay (h : d.Furnished places d₁) {absolute : Bool} {above : List String} {place : Place}
    (hplace : d.OnWay absolute above place) : d₁.OnWay absolute above place := by
  obtain ⟨names, hnames, hleads⟩ := hplace
  exact ⟨names, hnames, h.leadsTo hleads⟩

end Furnished

/-! ### One folder -/

section
variable {d d' : Disk} {path : String}

theorem makeFolder_eq_ok (h : d.makeFolder path = .ok d') :
    ∃ folder name, d.locate path = .ok (.named folder name) ∧
      d.child folder name = .ok none ∧ d' = d.put (folder ++ [name]) .folder := by
  unfold makeFolder at h
  cases hlocate : d.locate path with
  | error e =>
    rw [hlocate] at h
    cases h
  | ok goal =>
    rw [hlocate] at h
    cases goal with
    | folder place => cases h
    | named folder name =>
      simp only [bind, Except.bind] at h
      rcases hchild : d.child folder name with e | _ | found
      · rw [hchild] at h
        cases h
      · rw [hchild] at h
        exact ⟨folder, name, rfl, hchild, (Except.ok.inj h).symm⟩
      · rw [hchild] at h
        cases h

theorem furnished_of_makeFolder (h : d.makeFolder path = .ok d') :
    d.Furnished (d'.LeadsTo path) d' := by
  obtain ⟨folder, name, hlocate, hchild, rfl⟩ := makeFolder_eq_ok h
  have hput : d.Furnished _ (d.put (folder ++ [name]) .folder) :=
    .put (List.append_ne_nil_of_right_ne_nil _ (List.cons_ne_nil _ _)) (child_eq hchild)
  refine hput.mono ?_
  rintro place rfl
  exact ⟨folder, name, hput.keepsFolders.locate_eq_ok hlocate, rfl⟩

theorem isFolder_of_makeFolder (h : d.makeFolder path = .ok d') : d'.isFolder path = true := by
  have hlocate' {goal : Goal} : d.locate path = .ok goal → d'.locate path = .ok goal :=
    (furnished_of_makeFolder h).keepsFolders.locate_eq_ok
  obtain ⟨folder, name, hlocate, hchild, rfl⟩ := makeFolder_eq_ok h
  have hplace : folder ++ [name] ≠ [] := List.append_ne_nil_of_right_ne_nil _ (List.cons_ne_nil _ _)
  have hchild' : (d.put (folder ++ [name]) .folder).child folder name = .ok (some .folder) :=
    child_eq_ok_iff.mpr ⟨(child_eq_ok_iff.mp hchild).1, get?_put_self d hplace _⟩
  exact isFolder_iff.mpr ⟨_, find_of_folder rfl (hlocate' hlocate) hchild', rfl⟩

theorem makeFolder_of_isFolder (h : d.isFolder path = true) :
    d.makeFolder path = .error .alreadyExists := by
  obtain ⟨e, hfind, -⟩ := isFolder_iff.mp h
  unfold find at hfind
  unfold makeFolder
  cases hlocate : d.locate path with
  | error e =>
    rw [hlocate] at hfind
    cases hfind
  | ok goal =>
    cases goal with
    | folder place => rfl
    | named folder name =>
      rw [hlocate] at hfind
      simp only [bind, Except.bind] at hfind ⊢
      rcases hchild : d.child folder name with e | _ | found
      · rw [hchild] at hfind
        cases hfind
      · rw [hchild] at hfind
        cases hfind
      · rfl

theorem furnished_settle (d : Disk) (path : String) :
    d.Furnished ((d.settle path (d.makeFolder path)).1.LeadsTo path)
      (d.settle path (d.makeFolder path)).1 := by
  cases hmake : d.makeFolder path with
  | ok d' => exact furnished_of_makeFolder hmake
  | error e =>
    rw [settle]
    split
    · exact .refl d _
    · exact .refl d _

theorem isFolder_of_settle (h : (d.settle path (d.makeFolder path)).2 = .ok ()) :
    (d.settle path (d.makeFolder path)).1.isFolder path = true := by
  cases hmake : d.makeFolder path with
  | ok d' => exact isFolder_of_makeFolder hmake
  | error e =>
    rw [hmake, settle] at h
    rw [settle]
    split
    · assumption
    · rw [if_neg ‹_›] at h
      cases h

end

/-! ### All folders of a path -/

section
variable {d : Disk} {absolute : Bool} {name : String} {above : List String}

/-- Folders in a row: the last one at once, or after those above it. -/
theorem makeFolders_cons (d : Disk) (absolute : Bool) (name : String) (above : List String) :
    d.makeFolders absolute (name :: above) =
        d.settle (Path.ofNames absolute (name :: above).reverse)
          (d.makeFolder (Path.ofNames absolute (name :: above).reverse)) ∨
      (∃ e, (d.makeFolders absolute above).2 = .error e ∧
        d.makeFolders absolute (name :: above) = d.makeFolders absolute above) ∨
      ((d.makeFolders absolute above).2 = .ok () ∧
        d.makeFolders absolute (name :: above) =
          (d.makeFolders absolute above).1.settle (Path.ofNames absolute (name :: above).reverse)
            ((d.makeFolders absolute above).1.makeFolder
              (Path.ofNames absolute (name :: above).reverse))) := by
  rw [makeFolders]
  split
  · rcases hrest : d.makeFolders absolute above with ⟨d₁, e | _⟩
    · exact .inr (.inl ⟨e, rfl, rfl⟩)
    · exact .inr (.inr ⟨rfl, rfl⟩)
  · exact .inl rfl

theorem furnished_makeFolders (d : Disk) (absolute : Bool) (above : List String) :
    d.Furnished ((d.makeFolders absolute above).1.OnWay absolute above)
      (d.makeFolders absolute above).1 := by
  induction above with
  | nil => exact .refl d _
  | cons name above ih =>
    have hwhole {d₁ : Disk} (place : Place)
        (h : d₁.LeadsTo (Path.ofNames absolute (name :: above).reverse) place) :
        d₁.OnWay absolute (name :: above) place := ⟨_, List.suffix_rfl, h⟩
    have hpart {d₁ : Disk} (place : Place) :
        d₁.OnWay absolute above place → d₁.OnWay absolute (name :: above) place := by
      rintro ⟨names, hnames, hleads⟩
      exact ⟨names, hnames.trans (List.suffix_cons name above), hleads⟩
    obtain heq | ⟨_, _, heq⟩ | ⟨_, heq⟩ := makeFolders_cons d absolute name above
    · rw [heq]
      exact (furnished_settle d _).mono hwhole
    · rw [heq]
      exact ih.mono hpart
    · have hlast := furnished_settle (d.makeFolders absolute above).1
        (Path.ofNames absolute (name :: above).reverse)
      rw [heq]
      refine (ih.mono fun place hplace => hpart place ?_).trans (hlast.mono hwhole)
      exact hlast.onWay hplace

theorem isFolder_of_makeFolders
    (h : (d.makeFolders absolute (name :: above)).2 = .ok ()) :
    (d.makeFolders absolute (name :: above)).1.isFolder
      (Path.ofNames absolute (name :: above).reverse) = true := by
  obtain heq | ⟨e, hrest, heq⟩ | ⟨_, heq⟩ := makeFolders_cons d absolute name above
  · rw [heq] at h ⊢
    exact isFolder_of_settle h
  · rw [heq, hrest] at h
    cases h
  · rw [heq] at h ⊢
    exact isFolder_of_settle h

theorem makeFolders_of_isFolder
    (h : d.isFolder (Path.ofNames absolute (name :: above).reverse) = true) :
    d.makeFolders absolute (name :: above) = (d, .ok ()) := by
  rw [makeFolders, makeFolder_of_isFolder h]
  exact if_pos h

end
end BasRelief.Disk
