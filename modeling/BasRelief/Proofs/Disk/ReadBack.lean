import BasRelief.Proofs.Disk.Walks

/-!
# A written file is read back

A write puts a file where there was a file or nothing. No folder that a path passes is changed by
that, so the path leads to the same place as before, and there to what was written.
-/

namespace BasRelief.Disk

/-- A path to write to leads to a file or to nothing. -/
theorem not_hasFolder_of_target {d : Disk} {path : String} {place : Place}
    {content : Option Content} (h : d.target path = .ok (place, content)) :
    ¬d.hasFolder place = true := by
  intro hplace
  obtain ⟨e, hentry, hfolder⟩ := hasFolder_iff.mp hplace
  rw [(get?_target h).2] at hentry
  cases content with
  | none => cases hentry
  | some content =>
    obtain rfl := Option.some.inj hentry
    cases hfolder

theorem find_of_write {d d' : Disk} {path : String} {bytes : List UInt8}
    (h : d.write path bytes = .ok d') : d'.find path = .ok (.file (.octets bytes)) := by
  obtain ⟨place, content, htarget, rfl⟩ := eq_put_of_write h
  have hkeeps := KeepsFolders.put (not_hasFolder_of_target htarget) (.octets bytes)
  obtain ⟨hroot, -⟩ := get?_target htarget
  obtain ⟨folder, name, hlocate, hslash, rfl, hchild⟩ := target_eq_ok htarget
  have hread : (d.put (folder ++ [name]) (.file (.octets bytes))).child folder name =
      .ok (some (.file (.octets bytes))) :=
    child_eq_ok_iff.mpr ⟨(child_eq_ok_iff.mp hchild).1, get?_put_self d hroot _⟩
  rw [find, hkeeps.locate_eq_ok hlocate]
  simp only [bind, Except.bind, hread, hslash]
  rfl

theorem file?_of_write {d d' : Disk} {path : String} {bytes : List UInt8}
    (h : d.write path bytes = .ok d') : d'.file? path = some (.octets bytes) := by
  rw [file?, find_of_write h]

theorem exists?_of_writeText {d d' : Disk} {path : String} {cs : List Char}
    (h : d.writeText path cs = .ok d') : d'.exists? path = true := by
  rw [exists?, find_of_write h]
  rfl

theorem readOctets_of_writeText {d d' : Disk} {path : String} {cs : List Char}
    (h : d.writeText path cs = .ok d') : d'.readOctets path = .ok (Text.encode cs) := by
  rw [readOctets, content, find_of_write h]
  rfl

theorem readText_of_writeText {d d' : Disk} {path : String} {cs : List Char}
    (h : d.writeText path cs = .ok d') : d'.readText path = .ok cs := by
  unfold readText
  rw [readOctets_of_writeText h]
  simp only [bind, Except.bind, Text.decode?_encode]
  rfl

end BasRelief.Disk
