import MaterialViewer.Files.Tree

/-!
# Proofs: writing files

A file that is put into a tree takes nothing away, so that every path that names something still
names it. A text that was written to a path can be read from this path.
-/

namespace MaterialViewer.FileTree

variable {t : FileTree} {location target : Location} {content : ByteArray}

theorem content?_insertFile (t : FileTree) (location : Location) (content : ByteArray) :
    (t.insertFile location content).content? location = some content := List.lookup_cons_self

theorem fromUTF8?_toUTF8 (text : String) : String.fromUTF8? text.toUTF8 = some text := by
  simp only [String.fromUTF8?, String.toUTF8_eq_toByteArray, Option.dite_none_right_eq_some,
    Option.some.injEq]
  exact ⟨text.isValidUTF8, rfl⟩

/-- A text that was put into a file can be read from it. -/
theorem readText?_insertFile {text : String} {path : Path}
    (h : (t.insertFile location text.toUTF8).resolve path = some location) :
    (t.insertFile location text.toUTF8).readText? path = some text := by
  unfold readText? readBytes?
  rw [h, Option.bind_some, content?_insertFile, Option.bind_some, fromUTF8?_toUTF8]

/-! ## What is still there -/

theorem hasDirectory_insertFile (h : t.hasDirectory target = true) (location : Location)
    (content : ByteArray) : (t.insertFile location content).hasDirectory target = true :=
  List.contains_iff_mem.mpr (List.mem_append_left _ (List.contains_iff_mem.mp h))

theorem content?_insertFile_of_ne (h : target ≠ location) (t : FileTree) (content : ByteArray) :
    (t.insertFile location content).content? target = t.content? target := by
  have hfilter : ∀ files : List (Location × ByteArray),
      (files.filter fun file => file.1 ≠ location).lookup target = files.lookup target := by
    intro files
    induction files with
    | nil => rfl
    | cons file files ih =>
      obtain ⟨other, bytes⟩ := file
      by_cases hother : other = location
      · rw [List.filter_cons_of_neg (by simp [hother]), ih, List.lookup_cons,
          beq_false_of_ne (hother ▸ h)]
      · rw [List.filter_cons_of_pos (by simp [hother]), List.lookup_cons, List.lookup_cons, ih]
  rw [content?, content?, insertFile, List.lookup_cons, beq_false_of_ne h]
  exact hfilter t.files

theorem hasFile_insertFile (h : t.hasFile target = true) (location : Location)
    (content : ByteArray) : (t.insertFile location content).hasFile target = true := by
  by_cases hsame : target = location
  · rw [hsame, hasFile, content?_insertFile]
    rfl
  · rw [hasFile, content?_insertFile_of_ne hsame]
    exact h

/-- What a path leads to is still there. -/
theorem walk_insertFile {start : Location} {parts : List String}
    (h : t.walk start parts = some target) (location : Location) (content : ByteArray) :
    (t.insertFile location content).walk start parts = some target := by
  induction parts generalizing start with
  | nil => exact h
  | cons part parts ih =>
    rw [walk] at h ⊢
    by_cases hdirectory : t.hasDirectory start = true
    · rw [if_pos hdirectory] at h
      rw [if_pos (hasDirectory_insertFile hdirectory location content)]
      by_cases hidle : Path.isIdle part = true
      · rw [if_pos hidle] at h ⊢
        exact ih h
      rw [if_neg hidle] at h ⊢
      by_cases hup : part = ".."
      · rw [if_pos hup] at h ⊢
        exact ih h
      rw [if_neg hup] at h ⊢
      dsimp only at h ⊢
      by_cases hnext : (t.hasDirectory (start ++ [part]) || t.hasFile (start ++ [part])) = true
      · have hnext' : ((t.insertFile location content).hasDirectory (start ++ [part]) ||
            (t.insertFile location content).hasFile (start ++ [part])) = true := by
          rcases Bool.or_eq_true_iff.mp hnext with hnext | hnext
          · exact Bool.or_eq_true_iff.mpr (.inl (hasDirectory_insertFile hnext _ _))
          · exact Bool.or_eq_true_iff.mpr (.inr (hasFile_insertFile hnext _ _))
        rw [if_pos hnext] at h
        rw [if_pos hnext']
        exact ih h
      · rw [if_neg hnext] at h
        cases h
    · rw [if_neg hdirectory] at h
      cases h

theorem walk_append (t : FileTree) (start : Location) (front back : List String) :
    t.walk start (front ++ back) =
      (t.walk start front).bind fun location => t.walk location back := by
  induction front generalizing start with
  | nil => rfl
  | cons part front ih =>
    rw [List.cons_append, walk, walk]
    split
    · split
      · exact ih _
      · split
        · exact ih _
        · dsimp only
          split
          · exact ih _
          · rfl
    · rfl

/-- A path is written in the directory that all its parts but the last lead to. -/
theorem writeLocation?_spec {path : Path} (h : t.writeLocation? path = some location) :
    ∃ front name directory, path.parts = front ++ [name] ∧ Path.isIdle name = false ∧
      name ≠ ".." ∧
      t.walk (if path.isAbsolute then [] else t.workingDirectory) front = some directory ∧
      t.hasDirectory directory = true ∧ location = directory ++ [name] := by
  unfold writeLocation? at h
  split at h
  · cases h
  next name hname =>
  obtain ⟨front, hparts⟩ := List.getLast?_eq_some_iff.mp hname
  rw [hparts, List.dropLast_concat] at h
  dsimp only at h
  split at h
  · cases h
  next hplain =>
  obtain ⟨hidle, hup⟩ : Path.isIdle name = false ∧ name ≠ ".." := by
    simpa [not_or] using hplain
  split at h
  · cases h
  next directory hwalk =>
  split at h
  next hdirectory =>
    exact ⟨front, name, directory, hparts, hidle, hup, hwalk,
      (Bool.and_eq_true_iff.mp hdirectory).1, (Option.some.inj h).symm⟩
  · cases h

theorem walk_concat_insertFile {directory : Location} {name : String}
    (hdirectory : t.hasDirectory directory = true) (hidle : Path.isIdle name = false)
    (hup : name ≠ "..") (content : ByteArray) :
    (t.insertFile (directory ++ [name]) content).walk directory [name] =
      some (directory ++ [name]) := by
  have hdirectory' := hasDirectory_insertFile hdirectory (directory ++ [name]) content
  have hfile :
      (t.insertFile (directory ++ [name]) content).hasFile (directory ++ [name]) = true := by
    rw [hasFile, content?_insertFile]
    rfl
  rw [walk, if_pos hdirectory', hidle, if_neg Bool.false_ne_true, if_neg hup]
  dsimp only
  rw [hfile, Bool.or_true, if_pos rfl]
  rfl

/-- A path that can be written then leads to the file. -/
theorem resolve_insertFile {path : Path} (h : t.writeLocation? path = some location)
    (content : ByteArray) : (t.insertFile location content).resolve path = some location := by
  obtain ⟨front, name, directory, hparts, hidle, hup, hwalk, hdirectory, rfl⟩ :=
    writeLocation?_spec h
  -- the empty path has one part, which is idle
  have htext : path.text ≠ "" := by
    intro htext
    have hempty : path.parts = [""] := by rw [Path.parts, htext]; rfl
    have hname := congrArg List.getLast? (hempty.symm.trans hparts)
    rw [List.getLast?_concat] at hname
    rw [← Option.some.inj hname] at hidle
    cases hidle
  have hwalk' := walk_insertFile hwalk (directory ++ [name]) content
  rw [resolve, if_neg htext, hparts, walk_append]
  exact (congrArg (Option.bind · _) hwalk').trans
    (walk_concat_insertFile hdirectory hidle hup content)

/-- A text that was written to a path can be read from it. -/
theorem readText?_of_writeText? {path : Path} {text : String} {t' : FileTree}
    (h : t.writeText? path text = some t') : t'.readText? path = some text := by
  obtain ⟨location, hlocation, rfl⟩ := Option.map_eq_some_iff.mp h
  exact readText?_insertFile (resolve_insertFile hlocation _)

end MaterialViewer.FileTree
