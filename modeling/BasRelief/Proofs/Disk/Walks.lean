import BasRelief.Disk.Files

/-!
# Walks through folders

Whether names lead to a folder, and to which one, depends on the folders of the disk and on their
seals alone. A disk that keeps all folders of another one, and seals none of them, is walked in the
same way.
-/

namespace BasRelief.Disk

/-- The disk `d'` has all folders of `d`, as they were, and no other sealed ones. -/
structure KeepsFolders (d d' : Disk) : Prop where
  here : d'.here = d.here
  kept : ∀ place e, e.isFolder = true → d.get? place = some e → d'.get? place = some e
  sealed : ∀ place, d'.isSealed place = true → d.isSealed place = true

theorem isSealed_iff {d : Disk} {place : Place} :
    d.isSealed place = true ↔ d.get? place = some .sealedFolder := by
  unfold isSealed
  split <;> simp_all

theorem hasFolder_iff {d : Disk} {place : Place} :
    d.hasFolder place = true ↔ ∃ e, d.get? place = some e ∧ e.isFolder = true := by
  unfold hasFolder
  cases d.get? place <;> simp

theorem hasFolder_of_isSealed {d : Disk} {place : Place} (h : d.isSealed place = true) :
    d.hasFolder place = true := hasFolder_iff.mpr ⟨_, isSealed_iff.mp h, rfl⟩

/-- A folder is found also by a path that ends in a slash. -/
theorem find_of_folder {d : Disk} {path : String} {folder : Place} {name : String} {e : Entry}
    (hfolder : e.isFolder = true) (hlocate : d.locate path = .ok (.named folder name))
    (hchild : d.child folder name = .ok (some e)) : d.find path = .ok e := by
  simp only [find, hlocate, hchild, bind, Except.bind, hfolder, Bool.not_true, Bool.and_false,
    Bool.false_eq_true, if_false]
  rfl

namespace KeepsFolders
variable {d d' : Disk}

/-- A file takes the place of no folder. -/
theorem put {place : Place} (h : ¬d.hasFolder place = true) (content : Content) :
    d.KeepsFolders (d.put place (.file content)) where
  here := rfl
  kept := by
    intro other e hfolder hother
    have hne : other ≠ place := by
      rintro rfl
      exact h (hasFolder_iff.mpr ⟨e, hother, hfolder⟩)
    rw [get?_put_of_ne d hne, hother]
  sealed := by
    intro other hsealed
    have hother := isSealed_iff.mp hsealed
    by_cases hplace : other = place
    · subst hplace
      by_cases root : other = []
      · subst root
        cases hother
      · rw [get?_put_self d root] at hother
        cases hother
    · rw [get?_put_of_ne d hplace] at hother
      exact isSealed_iff.mpr hother

theorem isSealed_eq (h : d.KeepsFolders d') (place : Place) :
    d'.isSealed place = d.isSealed place := by
  rw [Bool.eq_iff_iff]
  refine ⟨h.sealed place, fun hsealed => ?_⟩
  exact isSealed_iff.mpr (h.kept place _ rfl (isSealed_iff.mp hsealed))

theorem folderAt_eq (h : d.KeepsFolders d') (place : Place) :
    d'.folderAt place = d.folderAt place := by
  rw [folderAt, folderAt, h.isSealed_eq]

theorem child_eq_folder (h : d.KeepsFolders d') {folder : Place} {name : String} {e : Entry}
    (hfolder : e.isFolder = true) (hchild : d.child folder name = .ok (some e)) :
    d'.child folder name = .ok (some e) := by
  obtain ⟨hsize, hentry⟩ := child_eq_ok_iff.mp hchild
  exact child_eq_ok_iff.mpr ⟨hsize, h.kept _ e hfolder hentry⟩

/-- Names that lead to a folder still lead there. -/
theorem descend_eq_ok (h : d.KeepsFolders d') {folder last : Place} {names : List String}
    (hgoal : d.descend folder names = .ok last) : d'.descend folder names = .ok last := by
  induction names generalizing folder with
  | nil => exact hgoal
  | cons name names ih =>
    rw [descend] at hgoal ⊢
    rw [h.isSealed_eq]
    by_cases hsealed : d.isSealed folder = true
    · rw [if_pos hsealed] at hgoal
      cases hgoal
    rw [if_neg hsealed] at hgoal ⊢
    generalize goal folder name = next at hgoal ⊢
    cases next with
    | folder place => exact ih hgoal
    | named folder name =>
      dsimp only at hgoal ⊢
      rcases hchild : d.child folder name with e | _ | e
      · rw [hchild] at hgoal
        cases hgoal
      · rw [hchild] at hgoal
        cases hgoal
      · rw [hchild] at hgoal
        dsimp only at hgoal
        by_cases hfolder : e.isFolder = true
        · rw [if_pos hfolder] at hgoal
          rw [h.child_eq_folder hfolder hchild]
          dsimp only
          rw [if_pos hfolder]
          exact ih hgoal
        · rw [if_neg hfolder] at hgoal
          cases hgoal

theorem start_eq (h : d.KeepsFolders d') (path : String) : d'.start path = d.start path := by
  rw [start, start, h.here]

theorem locate_eq_ok (h : d.KeepsFolders d') {path : String} {goal : Goal}
    (hgoal : d.locate path = .ok goal) : d'.locate path = .ok goal := by
  unfold locate at hgoal ⊢
  split at hgoal
  · cases hgoal
  split at hgoal
  · cases hgoal
  split at hgoal
  · cases hgoal
  rw [if_neg ‹_›, if_neg ‹_›, if_neg ‹_›, h.start_eq]
  cases hfolder : d.descend (d.start path) (Path.names path).dropLast with
  | error e =>
    rw [hfolder] at hgoal
    cases hgoal
  | ok folder =>
    rw [hfolder] at hgoal
    rw [h.descend_eq_ok hfolder]
    simp only [bind, Except.bind, h.isSealed_eq] at hgoal ⊢
    exact hgoal

end KeepsFolders
end BasRelief.Disk
