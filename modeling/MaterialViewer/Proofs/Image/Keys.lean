import MaterialViewer.Proofs.Files.Location
import MaterialViewer.Proofs.Image.Cache

/-!
# Proofs: the keys of images

The key of an image is found in one of two ways: if the file is there, by walking to it, and if not,
by the text of its path. Both arrive at the same location, so a file may come or go between two
calls of the cache, and paths share an entry exactly if by their text they arrive at one location.
-/

namespace MaterialViewer

namespace Path

/-! ## Where a path arrives -/

/-- Where the parts of a path arrive from a location, by their text alone. -/
inductive Arrives : Location → List String → Location → Prop
  /-- Nothing is left. -/
  | stop (target : Location) : Arrives target [] target
  /-- Empty parts and single dots are dropped. -/
  | stay {start target : Location} {part : String} {rest : List String}
      (hidle : part = "" ∨ part = ".") (hrest : Arrives start rest target) :
      Arrives start (part :: rest) target
  /-- There is nothing above the root. -/
  | top {target : Location} {rest : List String} (hrest : Arrives [] rest target) :
      Arrives [] (".." :: rest) target
  /-- Two dots take the last name away. -/
  | up {start target : Location} {name : String} {rest : List String}
      (hrest : Arrives start rest target) : Arrives (start ++ [name]) (".." :: rest) target
  /-- Any other part is the name of what comes next. -/
  | down {start target : Location} {part : String} {rest : List String}
      (hname : part ≠ "" ∧ part ≠ "." ∧ part ≠ "..")
      (hrest : Arrives (start ++ [part]) rest target) : Arrives start (part :: rest) target

/-- The lexical normalization of a path, made absolute from a directory: an absolute path starts at
the root, any other one in the directory. -/
def NormalizesTo (base : Location) (p : Path) (target : Location) : Prop :=
  Arrives (if p.isAbsolute then [] else base) p.parts target

/-- The normalizations of two paths coincide. -/
def Coincide (base : Location) (p q : Path) : Prop :=
  ∃ target, p.NormalizesTo base target ∧ q.NormalizesTo base target

variable {base start target : Location} {part : String} {rest parts : List String} {p q : Path}

/-- The parts of a path arrive at one location. -/
theorem arrives_iff : Arrives start parts target ↔ target = FileTree.lexicalWalk start parts := by
  constructor
  · intro h
    induction h with
    | stop => rfl
    | stay hidle _ ih => rw [FileTree.lexicalWalk_stay (isIdle_iff.mpr hidle), ih]
    | top _ ih => rw [FileTree.lexicalWalk_up, List.dropLast_nil, ih]
    | up _ ih => rw [FileTree.lexicalWalk_up, List.dropLast_concat, ih]
    | down hname _ ih =>
      have hidle : ¬ isIdle _ = true := fun h => (isIdle_iff.mp h).elim hname.1 hname.2.1
      rw [FileTree.lexicalWalk_down hidle hname.2.2, ih]
  · rintro rfl
    induction parts generalizing start with
    | nil => exact .stop start
    | cons part rest ih =>
      by_cases hidle : part = "" ∨ part = "."
      · rw [FileTree.lexicalWalk_stay (isIdle_iff.mpr hidle)]
        exact .stay hidle ih
      by_cases hup : part = ".."
      · subst hup
        rw [FileTree.lexicalWalk_up]
        rcases List.eq_nil_or_concat start with rfl | ⟨start, name, rfl⟩
        · exact .top ih
        · rw [List.concat_eq_append, List.dropLast_concat]
          exact .up ih
      · have hname : part ≠ "" ∧ part ≠ "." ∧ part ≠ ".." :=
          ⟨fun h => hidle (.inl h), fun h => hidle (.inr h), hup⟩
        rw [FileTree.lexicalWalk_down (fun h => hidle (isIdle_iff.mp h)) hup]
        exact .down hname ih

theorem normalizesTo_iff : p.NormalizesTo base target ↔ target = p.lexicalLocation base :=
  arrives_iff

theorem coincide_iff : Coincide base p q ↔ p.lexicalLocation base = q.lexicalLocation base := by
  simp only [Coincide, normalizesTo_iff]
  exact exists_eq_left

/-- Different locations of names have different paths. -/
theorem IsProper.ofLocation_inj {location other : Location} (h : IsProper location)
    (hother : IsProper other) : ofLocation location = ofLocation other ↔ location = other := by
  refine ⟨fun heq => ?_, congrArg ofLocation⟩
  rw [← h.steps_ofLocation, heq, hother.steps_ofLocation]

end Path

/-! ## Trees in which something was written or removed -/

namespace FileTree

variable {t t' : FileTree} {p : Path}

theorem workingDirectory_of_writeBytes? {content : ByteArray}
    (h : t.writeBytes? p content = some t') : t'.workingDirectory = t.workingDirectory := by
  obtain ⟨location, -, rfl⟩ := Option.map_eq_some_iff.mp h
  rfl

theorem workingDirectory_of_removeFile? (h : t.removeFile? p = some t') :
    t'.workingDirectory = t.workingDirectory := by
  unfold removeFile? at h
  split at h
  · split at h
    · rw [← Option.some.inj h]
    · cases h
  · cases h

end FileTree

/-! ## Keys and entries -/

namespace ImageCache

variable {t t' : FileTree} {p q : Path}

theorem key_eq_ofLocation (hp : p.text ≠ "") :
    key t p = Path.ofLocation (p.lexicalLocation t.workingDirectory) := by
  rw [key_eq, Path.normalize, if_neg hp]

theorem key_eq_of_workingDirectory_eq (h : t'.workingDirectory = t.workingDirectory) (p : Path) :
    key t' p = key t p := by
  rw [key_eq, key_eq, h]

/-- A key is a path of its own location. -/
theorem key_key (hproper : Path.IsProper t.workingDirectory) (hp : p.text ≠ "") :
    key t (key t p) = key t p := by
  rw [key_eq_ofLocation hp, key_eq_ofLocation (Path.ofLocation_text_ne _),
    (hproper.lexicalLocation p).lexicalLocation_ofLocation]

theorem key_eq_key_iff (hproper : Path.IsProper t.workingDirectory) (hp : p.text ≠ "")
    (hq : q.text ≠ "") : key t p = key t q ↔ Path.Coincide t.workingDirectory p q := by
  rw [key_eq_ofLocation hp, key_eq_ofLocation hq, Path.coincide_iff]
  exact (hproper.lexicalLocation p).ofLocation_inj (hproper.lexicalLocation q)

variable {δ : Type} [Device δ] {c : ImageCache} {d : δ}

theorem contains_acquire_iff : (c.acquire t p d).2.1.contains t' q = true ↔
    key t' q = key t p ∨ c.contains t' q = true := by
  unfold contains
  by_cases hkey : key t' q = key t p
  · rw [hkey, get?_acquire]
    simp
  · rw [get?_acquire_of_ne hkey]
    simp [hkey]

theorem contains_invalidate_iff : (c.invalidate t p d).1.contains t' q = true ↔
    key t' q ≠ key t p ∧ c.contains t' q = true := by
  unfold contains invalidate
  dsimp only
  by_cases hkey : key t' q = key t p
  · rw [hkey, Ordered.get?_erase_self]
    simp
  · rw [Ordered.get?_erase_of_ne hkey]
    simp [hkey]

/-- The key of a path that is not empty is the absolute path of the location at which the path
arrives by its text alone. It stays the same while files come and go, is its own key, and is shared
by just the paths that arrive at the same location. So by such a path, and by no other, an entry is
found, or dropped, that was made by the first one at another time. -/
theorem key_lexical (hproper : Path.IsProper t.workingDirectory) (hp : p.text ≠ "") :
    (∃ location, Path.IsProper location ∧
        (∀ target, p.NormalizesTo t.workingDirectory target ↔ target = location) ∧
        key t p = .ofLocation location) ∧
      (∀ t', t'.workingDirectory = t.workingDirectory → key t' p = key t p) ∧
      (∀ q content t', t.writeBytes? q content = some t' ∨ t.removeFile? q = some t' →
        key t' p = key t p) ∧
      key t (key t p) = key t p ∧
      ∀ q, q.text ≠ "" →
        (key t p = key t q ↔ Path.Coincide t.workingDirectory p q) ∧
        ∀ t', t'.workingDirectory = t.workingDirectory →
          ∀ (δ : Type) [Device δ] (c : ImageCache) (d d' : δ),
            let acquired := (c.acquire t p d).2.1
            (acquired.contains t' q = true ↔
              Path.Coincide t.workingDirectory p q ∨ c.contains t' q = true) ∧
            (Path.Coincide t.workingDirectory p q →
              acquired.acquire t' q d' = ((c.acquire t p d).1, acquired, d')) ∧
            ((c.invalidate t p d).1.contains t' q = true ↔
              ¬ Path.Coincide t.workingDirectory p q ∧ c.contains t' q = true) := by
  refine ⟨⟨_, hproper.lexicalLocation p, fun _ => Path.normalizesTo_iff, key_eq_ofLocation hp⟩,
    fun t' h => key_eq_of_workingDirectory_eq h p, ?_, key_key hproper hp, ?_⟩
  · rintro q content t' (hwritten | hremoved)
    · exact key_eq_of_workingDirectory_eq (FileTree.workingDirectory_of_writeBytes? hwritten) p
    · exact key_eq_of_workingDirectory_eq (FileTree.workingDirectory_of_removeFile? hremoved) p
  · intro q hq
    have hshared := key_eq_key_iff hproper hp hq
    refine ⟨hshared, ?_⟩
    intro t' ht' δ _ c d d' acquired
    have hkey : key t' q = key t p ↔ Path.Coincide t.workingDirectory p q := by
      rw [key_eq_of_workingDirectory_eq ht', eq_comm, hshared]
    refine ⟨contains_acquire_iff.trans (or_congr_left hkey), fun hcoincide => ?_,
      contains_invalidate_iff.trans (and_congr_left' (not_congr hkey))⟩
    refine acquire_known ?_
    rw [hkey.mpr hcoincide]
    exact get?_acquire

/-- A tree with one picture, which is in the working directory. -/
def pictures : FileTree := ⟨["images"], [[], ["images"]], [(["images", "wood.png"], ⟨#[]⟩)]⟩

/-- The tree in which the picture is gone. -/
def noPictures : FileTree := { pictures with files := [] }

/-- A path of the picture. -/
def picture : Path := ⟨"../images//./wood.png"⟩

/-- The key of a picture is the same when the picture is gone. By a path that climbs above the root
and leads through a directory that does not exist, the entry from before is found; by the path of
another picture it is not. -/
theorem key_lexical_pictures :
    Path.IsProper pictures.workingDirectory ∧ picture.text ≠ "" ∧
      pictures.removeFile? picture = some noPictures ∧
      key pictures picture = ⟨"/images/wood.png"⟩ ∧
      key noPictures picture = key pictures picture ∧
      let acquired := (({} : ImageCache).acquire pictures picture ({} : Headless)).2.1
      acquired.contains noPictures ⟨"/../images/gone/../wood.png"⟩ = true ∧
        ¬ acquired.contains noPictures ⟨"bark.png"⟩ = true := by
  have hproper : Path.IsProper pictures.workingDirectory := by decide
  have htext : picture.text ≠ "" := by decide
  have hremoved : pictures.removeFile? picture = some noPictures := rfl
  obtain ⟨⟨location, -, hlocation, hkey⟩, -, hkeep, -, hshared⟩ := key_lexical hproper htext
  have hparts : picture.parts = ["..", "images", "", ".", "wood.png"] := by decide +kernel
  have harrives : picture.NormalizesTo pictures.workingDirectory ["images", "wood.png"] := by
    show Path.Arrives ([] ++ ["images"]) _ _
    rw [hparts]
    refine .up (.down (by decide) (.stay (.inl rfl) (.stay (.inr rfl) ?_)))
    exact .down (by decide) (.stop _)
  refine ⟨hproper, htext, hremoved, ?_, hkeep _ ⟨#[]⟩ _ (.inr hremoved), ?_, ?_⟩
  · rw [hkey, ← (hlocation _).mp harrives]
    decide +kernel
  · obtain ⟨-, hentries⟩ := hshared ⟨"/../images/gone/../wood.png"⟩ (by decide)
    refine (hentries noPictures rfl Headless {} {} {}).1.mpr (.inl ?_)
    exact Path.coincide_iff.mpr (by decide +kernel)
  · obtain ⟨-, hentries⟩ := hshared ⟨"bark.png"⟩ (by decide)
    intro hcontains
    rcases (hentries noPictures rfl Headless {} {} {}).1.mp hcontains with hsame | hbefore
    · exact absurd (Path.coincide_iff.mp hsame) (by decide +kernel)
    · cases hbefore

end ImageCache

end MaterialViewer
