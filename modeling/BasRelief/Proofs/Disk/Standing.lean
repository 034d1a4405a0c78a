import BasRelief.Proofs.Disk.Walks
import BasRelief.Proofs.Results

/-!
# What stands at a path

Where names lead, and what stands there, is a matter of the entries alone. Whether it is found is
another one: no folder in which a name is looked up may be sealed, and neither the path nor a name
may be too long. What is found is what stands there.
-/

namespace BasRelief.Disk

/-! ### Standing -/

/-- The folder to which names lead, whether or not they may be looked up. -/
def walk? (d : Disk) : Place → List String → Option Place
  | folder, [] => some folder
  | folder, name :: rest =>
    match goal folder name with
    | .folder place => walk? d place rest
    | .named folder name =>
      if d.hasFolder (folder ++ [name]) then walk? d (folder ++ [name]) rest else none

/-- What stands at a path, whether or not it can be found. With a slash behind it, a name can only
stand for a folder. -/
def standing? (d : Disk) (path : String) : Option Entry :=
  if path = "" then none
  else
    (d.walk? (d.start path) (Path.names path).dropLast).bind fun folder =>
      match (Path.names path).getLast?.map (goal folder) with
      | none => some (d.folderAt folder)
      | some (.folder place) => some (d.folderAt place)
      | some (.named folder name) =>
        (d.get? (folder ++ [name])).filter fun e => e.isFolder || !Path.endsInSlash path

/-! ### Being let through -/

/-- The folder in which the next name is looked up. -/
def next (folder : Place) (name : String) : Place :=
  match goal folder name with
  | .folder place => place
  | .named folder name => folder ++ [name]

/-- The folders in which names are looked up, one for each name. -/
def lookups : Place → List String → List Place
  | _, [] => []
  | folder, name :: rest => folder :: lookups (next folder name) rest

/-- Nothing keeps the program from looking up the names of a path. -/
structure Admits (d : Disk) (path : String) : Prop where
  noNul : '\x00' ∉ path.toList
  pathSize : path.utf8ByteSize ≤ maxPathSize
  nameSizes : ∀ name ∈ Path.names path, name.utf8ByteSize ≤ maxNameSize
  unsealed : ∀ folder ∈ lookups (d.start path) (Path.names path), d.isSealed folder = false

/-! ### What is found -/

section
variable {d : Disk} {folder place : Place} {name path : String} {names : List String} {e : Entry}

theorem goal_cases (folder : Place) (name : String) :
    (∃ place, goal folder name = .folder place ∧ next folder name = place ∧
      name.utf8ByteSize ≤ maxNameSize) ∨
    (goal folder name = .named folder name ∧ next folder name = folder ++ [name]) := by
  by_cases hhere : name = "."
  · subst hhere
    exact .inl ⟨folder, rfl, rfl, by decide⟩
  by_cases habove : name = ".."
  · subst habove
    exact .inl ⟨folder.dropLast, rfl, rfl, by decide⟩
  · have hgoal : goal folder name = .named folder name := by
      rw [goal, if_neg hhere, if_neg habove]
    refine .inr ⟨hgoal, ?_⟩
    rw [next, hgoal]

theorem lookups_concat (folder : Place) (names : List String) (name : String) :
    lookups folder (names ++ [name]) = lookups folder names ++ [names.foldl next folder] := by
  induction names generalizing folder with
  | nil => rfl
  | cons first names ih =>
    rw [List.cons_append, lookups, lookups, ih, List.foldl_cons, List.cons_append]

theorem walk?_eq_foldl (h : d.walk? folder names = some place) :
    place = names.foldl next folder := by
  induction names generalizing folder with
  | nil => exact (Option.some.inj h).symm
  | cons name names ih =>
    rw [walk?] at h
    rw [List.foldl_cons]
    obtain ⟨above, hgoal, hnext, -⟩ | ⟨hgoal, hnext⟩ := goal_cases folder name
    · rw [hgoal] at h
      exact hnext ▸ ih h
    · rw [hgoal] at h
      dsimp only at h
      split at h
      · exact hnext ▸ ih h
      · cases h

/-- Names are followed exactly if they lead to a folder, are short enough and are looked up in
folders that are not sealed. -/
theorem descend_eq_ok_iff :
    d.descend folder names = .ok place ↔
      d.walk? folder names = some place ∧ (∀ name ∈ names, name.utf8ByteSize ≤ maxNameSize) ∧
        ∀ passed ∈ lookups folder names, d.isSealed passed = false := by
  induction names generalizing folder with
  | nil => simp [descend, walk?, lookups]
  | cons name names ih =>
    rw [descend, walk?, lookups, List.forall_mem_cons, List.forall_mem_cons]
    cases hsealed : d.isSealed folder with
    | true => simp
    | false =>
      rw [if_neg Bool.false_ne_true]
      obtain ⟨above, hgoal, hnext, hsize⟩ | ⟨hgoal, hnext⟩ := goal_cases folder name
      · simp only [hgoal, hnext, hsize, true_and]
        exact ih
      · simp only [hgoal, hnext, true_and]
        rcases hchild : d.child folder name with err | found
        · have hlong : ¬name.utf8ByteSize ≤ maxNameSize := fun hsize => by
            cases hchild.symm.trans (child_eq_ok_iff.mpr ⟨hsize, rfl⟩)
          simp [hlong]
        · obtain ⟨hsize, hfound⟩ := child_eq_ok_iff.mp hchild
          subst hfound
          rw [hasFolder]
          rcases d.get? (folder ++ [name]) with _ | e
          · simp
          · cases hfolder : e.isFolder with
            | false => simp [hfolder]
            | true => simp [hfolder, hsize, ih]

theorem admits_iff_of_nil (hnames : Path.names path = []) :
    d.Admits path ↔ '\x00' ∉ path.toList ∧ path.utf8ByteSize ≤ maxPathSize := by
  refine ⟨fun h => ⟨h.noNul, h.pathSize⟩, fun ⟨hnul, hsize⟩ => ⟨hnul, hsize, ?_, ?_⟩⟩
  · simp [hnames]
  · simp [hnames, lookups]

/-- For the last name, its own length and the folder in which it is looked up are what is left to
check. -/
theorem admits_iff_of_concat (hnames : Path.names path = names ++ [name])
    (hfolder : d.descend (d.start path) names = .ok folder) :
    d.Admits path ↔ '\x00' ∉ path.toList ∧ path.utf8ByteSize ≤ maxPathSize ∧
      name.utf8ByteSize ≤ maxNameSize ∧ d.isSealed folder = false := by
  obtain ⟨hwalk, hsizes, hseals⟩ := descend_eq_ok_iff.mp hfolder
  have hlookups : lookups (d.start path) (Path.names path) =
      lookups (d.start path) names ++ [folder] := by
    rw [hnames, lookups_concat, ← walk?_eq_foldl hwalk]
  constructor
  · rintro ⟨hnul, hsize, hnameSizes, hunsealed⟩
    exact ⟨hnul, hsize, hnameSizes name (by simp [hnames]), hunsealed folder (by simp [hlookups])⟩
  · rintro ⟨hnul, hsize, hname, hunsealed⟩
    refine ⟨hnul, hsize, fun other hother => ?_, fun passed hpassed => ?_⟩
    · rw [hnames] at hother
      obtain hother | hother := List.mem_append.mp hother
      · exact hsizes other hother
      · exact List.eq_of_mem_singleton hother ▸ hname
    · rw [hlookups] at hpassed
      obtain hpassed | hpassed := List.mem_append.mp hpassed
      · exact hseals passed hpassed
      · exact List.eq_of_mem_singleton hpassed ▸ hunsealed

/-- Where something is found, the path itself is of a kind that can be followed. -/
theorem path_of_find (h : d.find path = .ok e) :
    '\x00' ∉ path.toList ∧ path ≠ "" ∧ path.utf8ByteSize ≤ maxPathSize := by
  obtain ⟨goal, hlocate, -⟩ := bind_eq_ok_iff.mp h
  unfold locate at hlocate
  split at hlocate
  · cases hlocate
  split at hlocate
  · cases hlocate
  split at hlocate
  · cases hlocate
  exact ⟨by simpa using ‹¬path.toList.contains '\x00' = true›, ‹_›, Nat.not_lt.mp ‹_›⟩

section
variable (hnul : '\x00' ∉ path.toList) (hempty : path ≠ "")
  (hsize : path.utf8ByteSize ≤ maxPathSize)
include hnul hempty hsize

/-- The names in front of the last one lead to a folder in which the last one is looked up. -/
theorem find_iff_of_concat (hnames : Path.names path = names ++ [name])
    (hfolder : d.descend (d.start path) names = .ok folder) :
    d.find path = .ok e ↔ d.standing? path = some e ∧ d.Admits path := by
  have hcontains : ¬path.toList.contains '\x00' = true := by simpa using hnul
  obtain ⟨hwalk, -, -⟩ := descend_eq_ok_iff.mp hfolder
  rw [admits_iff_of_concat hnames hfolder]
  simp only [find, locate, standing?, if_neg hcontains, if_neg hempty,
    if_neg (Nat.not_lt.mpr hsize)]
  cases hsealed : d.isSealed folder with
  | true => simp [hnames, hfolder, hsealed, bind, Except.bind, throw, throwThe, MonadExceptOf.throw]
  | false =>
    simp only [hnames, hfolder, hwalk, hsealed, hnul, hsize, not_false_eq_true, and_true,
      true_and, List.dropLast_concat, List.getLast?_concat, Option.map_some, Option.bind_some,
      bind, Except.bind, pure, Except.pure, Bool.false_eq_true, if_false]
    obtain ⟨above, hgoal, -, hshort⟩ | ⟨hgoal, -⟩ := goal_cases folder name
    · simp [hgoal, hshort]
    · simp only [hgoal]
      rcases hchild : d.child folder name with err | found
      · have hlong : ¬name.utf8ByteSize ≤ maxNameSize := fun hshort => by
          cases hchild.symm.trans (child_eq_ok_iff.mpr ⟨hshort, rfl⟩)
        simp [hlong]
      · obtain ⟨hshort, hfound⟩ := child_eq_ok_iff.mp hchild
        rw [hfound]
        rcases found with _ | found
        · simp [throw, throwThe, MonadExceptOf.throw]
        · cases hfolder : found.isFolder <;> cases Path.endsInSlash path <;>
            simp [hfolder, hshort, Option.filter, throw, throwThe, MonadExceptOf.throw]

/-- If they lead nowhere, then either no folder is there or one of them is not looked up. -/
theorem find_iff_of_no_folder {err : DiskError} (hnames : Path.names path = names ++ [name])
    (hfolder : d.descend (d.start path) names = .error err) :
    d.find path = .ok e ↔ d.standing? path = some e ∧ d.Admits path := by
  refine iff_of_false (fun h => ?_) fun ⟨hstands, hadmits⟩ => ?_
  · simp [find, locate, hnul, hempty, Nat.not_lt.mpr hsize, hnames, hfolder, bind, Except.bind] at h
  · simp only [standing?, if_neg hempty, hnames, List.dropLast_concat,
      Option.bind_eq_some_iff] at hstands
    obtain ⟨folder, hwalk, -⟩ := hstands
    have hnameSizes := hadmits.nameSizes
    have hunsealed := hadmits.unsealed
    simp only [hnames, lookups_concat, List.forall_mem_append] at hnameSizes hunsealed
    cases hfolder.symm.trans (descend_eq_ok_iff.mpr ⟨hwalk, hnameSizes.1, hunsealed.1⟩)

end

/-- What is found at a path is what stands there, and it is found exactly if nothing keeps the
program from looking up the names of the path. -/
theorem find_eq_ok_iff : d.find path = .ok e ↔ d.standing? path = some e ∧ d.Admits path := by
  by_cases hpath : '\x00' ∉ path.toList ∧ path ≠ "" ∧ path.utf8ByteSize ≤ maxPathSize
  case neg =>
    refine iff_of_false (fun h => hpath (path_of_find h)) fun ⟨hstands, hadmits⟩ => ?_
    refine hpath ⟨hadmits.noNul, ?_, hadmits.pathSize⟩
    rintro rfl
    cases hstands
  obtain ⟨hnul, hempty, hsize⟩ := hpath
  rcases List.eq_nil_or_concat (Path.names path) with hnames | ⟨names, name, hnames⟩
  · rw [admits_iff_of_nil hnames]
    simp [find, locate, standing?, Nat.not_lt.mpr hsize, hempty, hnames, descend, walk?, hnul, hsize,
      bind, Except.bind, pure, Except.pure]
  · rw [List.concat_eq_append] at hnames
    cases hfolder : d.descend (d.start path) names with
    | error err => exact find_iff_of_no_folder hnul hempty hsize hnames hfolder
    | ok folder => exact find_iff_of_concat hnul hempty hsize hnames hfolder

theorem exists?_iff : d.exists? path = true ↔ (∃ e, d.standing? path = some e) ∧ d.Admits path := by
  have hfound : d.exists? path = true ↔ ∃ e, d.find path = .ok e := by
    unfold exists?
    cases d.find path <;> simp [Except.isOk, Except.toBool]
  rw [hfound]
  simp only [find_eq_ok_iff, exists_and_right]

end
end BasRelief.Disk
