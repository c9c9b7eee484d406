import MaterialViewer.Image.Cache
import MaterialViewer.Proofs.Files.Writing
import MaterialViewer.Proofs.Text.Split

/-!
# Proofs: locations of files

There are no links, so what a path leads to lies where the path says by its text alone. The absolute
path of a location leads back to the location. So the path under which an image is kept depends on
the working directory only, and when the content at one location changes, paths of other locations
still lead to what they led to.
-/

namespace MaterialViewer

namespace Path

/-- A location of names that a directory can have: without slashes, and not made of dots. -/
def IsProper (location : Location) : Prop :=
  ∀ name ∈ location, '/' ∉ name.toList ∧ isIdle name = false ∧ name ≠ ".."

instance (location : Location) : Decidable (IsProper location) :=
  inferInstanceAs (Decidable (∀ name ∈ location, _))

theorem isIdle_iff {part : String} : isIdle part = true ↔ part = "" ∨ part = "." := by
  rw [isIdle, Bool.or_eq_true, decide_eq_true_iff, decide_eq_true_iff]

variable {base location : Location} {path : Path} {steps : List String}

theorem not_mem_of_mem_steps {step : String} (h : step ∈ path.steps) :
    '/' ∉ step.toList ∧ isIdle step = false := by
  obtain ⟨hpart, hidle⟩ := List.mem_filter.1 h
  obtain ⟨cs, hcs, rfl⟩ := List.mem_map.1 hpart
  rw [String.toList_ofList]
  exact ⟨Text.not_mem_of_mem_splitOn hcs, by simpa using hidle⟩

theorem IsProper.lexicalStep {step : String} (h : IsProper base)
    (hstep : '/' ∉ step.toList ∧ isIdle step = false) : IsProper (lexicalStep base step) := by
  unfold Path.lexicalStep
  split
  · exact fun name hname => h name (List.dropLast_subset _ hname)
  · rename_i hup
    intro name hname
    rcases List.mem_append.1 hname with hname | hname
    · exact h name hname
    · rw [List.mem_singleton.1 hname]
      exact ⟨hstep.1, hstep.2, hup⟩

theorem IsProper.foldl_lexicalStep (h : IsProper base)
    (hsteps : ∀ step ∈ steps, '/' ∉ step.toList ∧ isIdle step = false) :
    IsProper (steps.foldl Path.lexicalStep base) := by
  induction steps generalizing base with
  | nil => exact h
  | cons step rest ih =>
    exact ih (h.lexicalStep (hsteps step List.mem_cons_self)) fun other hother =>
      hsteps other (List.mem_cons_of_mem _ hother)

/-- From a proper location every path names a proper location. -/
theorem IsProper.lexicalLocation (h : IsProper base) (path : Path) :
    IsProper (path.lexicalLocation base) := by
  refine IsProper.foldl_lexicalStep ?_ fun _ => not_mem_of_mem_steps
  split
  · exact fun name hname => nomatch hname
  · exact h

theorem IsProper.foldl_eq_append (h : IsProper location) (base : Location) :
    location.foldl Path.lexicalStep base = base ++ location := by
  induction location generalizing base with
  | nil => rw [List.foldl_nil, List.append_nil]
  | cons name rest ih =>
    obtain ⟨-, -, hup⟩ := h name List.mem_cons_self
    rw [List.foldl_cons, ih (fun other hother => h other (List.mem_cons_of_mem _ hother)),
      Path.lexicalStep, if_neg hup, List.append_assoc, List.singleton_append]

/-- The steps of the path of a location are its names. -/
theorem IsProper.steps_ofLocation (h : IsProper location) : (ofLocation location).steps = location := by
  have htext : (ofLocation location).text.toList =
      '/' :: ['/'].intercalate (location.map String.toList) := by
    have hslash : "/".toList = ['/'] := rfl
    rw [ofLocation, String.toList_append, hslash, Text.joinWith, String.toList_intercalate, hslash]
    rfl
  have hidle : ∀ name ∈ location, (!isIdle name) = true := fun name hname => by
    rw [(h name hname).2.1]
    rfl
  cases location with
  | nil => decide +kernel
  | cons name rest =>
    have hparts : (ofLocation (name :: rest)).parts = "" :: name :: rest := by
      have hnames : ∀ part ∈ (name :: rest).map String.toList, '/' ∉ part := by
        intro part hpart
        obtain ⟨other, hother, rfl⟩ := List.mem_map.1 hpart
        exact (h other hother).1
      have hcut : ∀ cs, Text.splitOn '/' ('/' :: cs) = [] :: Text.splitOn '/' cs := fun cs =>
        Text.splitOn_append List.not_mem_nil
      rw [parts, htext, hcut, Text.splitOn_intercalate (by simp) hnames, List.map_cons,
        Text.map_ofList_map_toList]
    rw [steps, hparts, List.filter_cons_of_neg (by decide)]
    exact List.filter_eq_self.2 hidle

/-- The path of a location names the location. -/
theorem IsProper.lexicalLocation_ofLocation (h : IsProper location) (base : Location) :
    (ofLocation location).lexicalLocation base = location := by
  have habsolute : (ofLocation location).isAbsolute = true := by
    unfold isAbsolute ofLocation
    rw [String.toList_append]
    rfl
  rw [Path.lexicalLocation, h.steps_ofLocation, if_pos habsolute, h.foldl_eq_append]
  rfl

theorem ofLocation_text_ne (location : Location) : (ofLocation location).text ≠ "" := by
  intro h
  have hlist := congrArg String.toList h
  rw [ofLocation, String.toList_append] at hlist
  cases hlist

end Path

namespace FileTree

variable {t t' : FileTree} {start target : Location} {parts : List String} {path other : Path}

/-- Where the parts of a path lead by their text alone. -/
def lexicalWalk (start : Location) (parts : List String) : Location :=
  (parts.filter fun part => !Path.isIdle part).foldl Path.lexicalStep start

theorem lexicalWalk_stay {part : String} (hidle : Path.isIdle part = true) :
    lexicalWalk start (part :: parts) = lexicalWalk start parts := by
  rw [lexicalWalk, List.filter_cons_of_neg (by simpa using hidle)]
  rfl

theorem lexicalWalk_up :
    lexicalWalk start (".." :: parts) = lexicalWalk start.dropLast parts := by
  rw [lexicalWalk, List.filter_cons_of_pos (by decide), List.foldl_cons, Path.lexicalStep,
    if_pos rfl]
  rfl

theorem lexicalWalk_down {name : String} (hidle : ¬ Path.isIdle name = true) (hup : name ≠ "..") :
    lexicalWalk start (name :: parts) = lexicalWalk (start ++ [name]) parts := by
  rw [lexicalWalk, List.filter_cons_of_pos (by simpa using hidle), List.foldl_cons,
    Path.lexicalStep, if_neg hup]
  rfl

/-- What parts of a path lead to lies where they say. -/
theorem eq_of_walk (h : t.walk start parts = some target) : target = lexicalWalk start parts := by
  induction parts generalizing start with
  | nil => exact (Option.some.inj h).symm
  | cons part rest ih =>
    rw [walk] at h
    split at h
    · split at h
      · rename_i hidle
        rw [lexicalWalk_stay hidle]
        exact ih h
      · rename_i hidle
        split at h
        · rename_i hup
          subst hup
          rw [lexicalWalk_up]
          exact ih h
        · rename_i hup
          rw [lexicalWalk_down hidle hup]
          dsimp only at h
          split at h
          · exact ih h
          · cases h
    · cases h

/-- What a path leads to lies at the location that it names. -/
theorem eq_of_resolve (h : t.resolve path = some target) :
    path.text ≠ "" ∧ target = path.lexicalLocation t.workingDirectory := by
  unfold resolve at h
  split at h
  · cases h
  · rename_i htext
    exact ⟨htext, eq_of_walk h⟩

/-- The working directory, the directories, and the files at all locations but that of a path are
the same. -/
structure ChangedOnlyAt (t t' : FileTree) (path : Path) : Prop where
  workingDirectory : t'.workingDirectory = t.workingDirectory
  directories : ∀ location, t'.hasDirectory location = t.hasDirectory location
  content : ∀ location, location ≠ path.lexicalLocation t.workingDirectory →
    t'.content? location = t.content? location

/-- Parts that do not lead to the changed location lead where they led before. -/
theorem ChangedOnlyAt.walk_eq (h : t.ChangedOnlyAt t' path)
    (hne : lexicalWalk start parts ≠ path.lexicalLocation t.workingDirectory) :
    t'.walk start parts = t.walk start parts := by
  induction parts generalizing start with
  | nil => rfl
  | cons part rest ih =>
    rw [walk, walk, h.directories]
    split
    · by_cases hidle : Path.isIdle part = true
      · rw [lexicalWalk_stay hidle] at hne
        rw [if_pos hidle, if_pos hidle]
        exact ih hne
      rw [if_neg hidle, if_neg hidle]
      by_cases hup : part = ".."
      · subst hup
        rw [lexicalWalk_up] at hne
        rw [if_pos rfl, if_pos rfl]
        exact ih hne
      rw [lexicalWalk_down hidle hup] at hne
      rw [if_neg hup, if_neg hup]
      dsimp only
      rw [h.directories, ih hne]
      by_cases hnext : start ++ [part] = path.lexicalLocation t.workingDirectory
      · -- a file that has come or gone on the way is no directory to go on from
        cases rest with
        | nil => exact absurd hnext hne
        | cons _ _ =>
          by_cases hdirectory : t.hasDirectory (start ++ [part]) = true
          · rw [hdirectory, Bool.true_or, Bool.true_or]
          · rw [walk, if_neg hdirectory, ite_self, ite_self]
      · rw [hasFile, hasFile, h.content _ hnext]
    · rfl

variable (h : t.ChangedOnlyAt t' path)
  (hne : other.lexicalLocation t.workingDirectory ≠ path.lexicalLocation t.workingDirectory)
include h hne

theorem ChangedOnlyAt.resolve_eq : t'.resolve other = t.resolve other := by
  unfold resolve
  rw [h.workingDirectory]
  split
  · rfl
  · exact h.walk_eq hne

theorem ChangedOnlyAt.readBytes?_eq : t'.readBytes? other = t.readBytes? other := by
  unfold readBytes?
  rw [h.resolve_eq hne]
  cases hresolve : t.resolve other with
  | none => rfl
  | some target =>
    obtain ⟨-, rfl⟩ := eq_of_resolve hresolve
    exact h.content _ hne

theorem ChangedOnlyAt.exists?_eq : t'.exists? other = t.exists? other := by
  unfold exists?
  rw [h.resolve_eq hne]

theorem ChangedOnlyAt.isFile_eq : t'.isFile other = t.isFile other := by
  unfold isFile
  rw [h.resolve_eq hne]
  cases hresolve : t.resolve other with
  | none => rfl
  | some target =>
    obtain ⟨-, rfl⟩ := eq_of_resolve hresolve
    show t'.hasFile _ = t.hasFile _
    rw [hasFile, hasFile, h.content _ hne]

end FileTree

/-! ## Image files -/

/-- The path under which an image is kept depends on the working directory only. -/
theorem ImageCache.key_eq (files : FileTree) (path : Path) :
    key files path = path.normalize files.workingDirectory := by
  unfold key FileTree.canonical?
  cases hresolve : files.resolve path with
  | none => rfl
  | some target =>
    obtain ⟨htext, rfl⟩ := FileTree.eq_of_resolve hresolve
    rw [Option.map_some, Option.getD_some, Path.normalize, if_neg htext]

/-- What can be read at a path of another location is the same. -/
theorem FileTree.ChangedOnlyAt.load_eq {t t' : FileTree} {path other : Path} {c : ImageCache}
    (h : t.ChangedOnlyAt t' path)
    (hne : other.lexicalLocation t.workingDirectory ≠ path.lexicalLocation t.workingDirectory)
    (hloaders : c.loaders = [.standard]) : c.load t' other = c.load t other := by
  have hread : Image.ofFile t' other = Image.ofFile t other := by
    unfold Image.ofFile
    rw [h.exists?_eq hne, h.readBytes?_eq hne]
  unfold ImageCache.load
  rw [hloaders, h.isFile_eq hne]
  simp only [List.find?_singleton, ImageLoader.standard]
  split
  · split
    · rename_i loader hloader
      split at hloader
      · obtain rfl := Option.some.inj hloader
        exact hread
      · cases hloader
    · rfl
  · rfl

end MaterialViewer
