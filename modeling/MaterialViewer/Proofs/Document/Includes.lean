import Mathlib.Tactic.ByContra
import MaterialViewer.Proofs.Document.Assembly
import MaterialViewer.Proofs.Document.Merging

/-!
# Proofs: included files

Reading a file reads the files that it asks for, and merges each of them before its own document.
The outcome is that of one walk through the files: `inclusions` lists them depth-first, each once,
and of the elements in them the first of each name is added to the main file's own.

Every file that is read for the first time leaves fewer files unread, so the depth at which reading
gives up is never reached.
-/

namespace MaterialViewer

/-! ## The elements of a file -/

namespace Element

/-- A written element, and every one directly in it, comes from no other file. -/
def IsWritten (e : Element) : Prop := e.sourceUri = none ∧ ∀ c ∈ e.children, c.sourceUri = none

theorem isWritten_ofTag (tag : Markup.Tag) : (ofTag tag).IsWritten :=
  ⟨rfl, fun _ hc => absurd hc List.not_mem_nil⟩

theorem IsWritten.addChild {e child : Element} (he : e.IsWritten) (hchild : child.IsWritten) :
    (e.addChild child).IsWritten := by
  refine ⟨he.1, fun c hc => ?_⟩
  rcases List.mem_append.mp hc with hc | hc
  · exact he.2 c hc
  · rw [List.mem_singleton.mp hc]
    exact hchild.1

end Element

namespace Assembly

variable {a a' : Assembly} {e : Element} {event : Markup.Event} {events : List Markup.Event}

/-- All elements of a tree under construction are written ones. -/
structure AllWritten (a : Assembly) : Prop where
  root : ∀ e ∈ a.root?, e.IsWritten
  opened : ∀ e ∈ a.opened, e.IsWritten

theorem AllWritten.close (ha : a.AllWritten) (he : e.IsWritten) : (a.close e).AllWritten := by
  unfold Assembly.close
  split
  next parent outer hopened =>
    have hparent : parent.IsWritten := ha.opened _ (by rw [hopened]; exact List.mem_cons_self)
    refine ⟨ha.root, List.forall_mem_cons.mpr ⟨hparent.addChild he, fun o ho => ?_⟩⟩
    exact ha.opened o (by rw [hopened]; exact List.mem_cons_of_mem _ ho)
  next hopened =>
    refine ⟨fun root hroot => ?_, fun o ho => absurd ho (by rw [hopened]; exact List.not_mem_nil)⟩
    rw [← Option.some.inj hroot]
    exact he

theorem AllWritten.step (ha : a.AllWritten) (h : Stepped a event a') : a'.AllWritten := by
  cases h with
  | silent _ => exact ha
  | directive _ => exact ⟨ha.root, ha.opened⟩
  | leaf _ _ => exact ha.close (Element.isWritten_ofTag _)
  | opens _ =>
    exact ⟨ha.root, List.forall_mem_cons.mpr ⟨Element.isWritten_ofTag _, ha.opened⟩⟩
  | @closes e outer hopened =>
    have hopen : ∀ o ∈ e :: outer, o.IsWritten := hopened ▸ ha.opened
    obtain ⟨he, houter⟩ := List.forall_mem_cons.mp hopen
    exact AllWritten.close ⟨ha.root, houter⟩ he

theorem AllWritten.run (ha : a.AllWritten) (h : events.foldlM Assembly.step a = .ok a') :
    a'.AllWritten :=
  run_induction (P := fun _ b => b.AllWritten) AllWritten.step [] ha h

end Assembly

namespace Document

variable {files : FileTree} {options : ReadOptions}

/-- The elements of a text come from no other file. -/
theorem sourceUri_of_parseText {origin text : String} {d : Document} {hrefs : List String}
    (h : parseText origin text = .ok (d, hrefs)) {e : Element} (he : e ∈ d.elements) :
    e.sourceUri = none := by
  unfold parseText at h
  cases hread : Element.ofEvents (Markup.events text) with
  | error m =>
    rw [hread] at h
    cases h
  | ok result =>
    rw [hread] at h
    cases h
    obtain ⟨hrun, -⟩ := Element.ofEvents_ok_iff.mp hread
    have hempty : Assembly.AllWritten {} :=
      ⟨fun _ h => (nomatch h), fun _ h => absurd h List.not_mem_nil⟩
    exact ((hempty.run hrun).root _ rfl).2 e he

/-! ## The order of the files -/

/-- The document that a file holds by itself, and the files that it asks for. -/
def readAlone (files : FileTree) (path : Path) : Except DocumentError (Document × List String) :=
  match files.readText? path with
  | none => .error (.unreadable path)
  | some text => parseText path.text text

/-- The elements that a file holds by itself, with the file they come from; none if the file is
faulty. -/
def writtenIn (files : FileTree) (path : Path) : List Element :=
  match readAlone files path with
  | .ok (d, _) => d.elements.map fun e => { e with sourceUri := some path.text }
  | .error _ => []

theorem sourceUri_of_readAlone {path : Path} {d : Document} {hrefs : List String}
    (h : readAlone files path = .ok (d, hrefs)) {e : Element} (he : e ∈ d.elements) :
    e.sourceUri = none := by
  unfold readAlone at h
  split at h
  · cases h
  · exact sourceUri_of_parseText h he

/-- A file asked for, with the directory of the file that asks for it. -/
abbrev Request := Option Path × String

/-- The files asked for in a directory. -/
def requests (options : ReadOptions) (base? : Option Path) (hrefs : List String) : List Request :=
  if options.skipIncludes then [] else hrefs.map (base?, ·)

/-- The files that a file asks for. -/
def requestsIn (files : FileTree) (options : ReadOptions) (path : Path) : List Request :=
  match readAlone files path with
  | .ok (_, hrefs) => requests options path.parent? hrefs
  | .error _ => []

/-- The path names a text file that has not been visited. -/
def IsNew (files : FileTree) (visited : List Path) (path : Path) : Prop :=
  (files.readText? path).isSome ∧ files.identity path ∉ visited

instance (visited : List Path) (path : Path) : Decidable (IsNew files visited path) :=
  inferInstanceAs (Decidable (_ ∧ _))

/-- The number of files that have not been visited. -/
def unread (files : FileTree) (visited : List Path) : Nat :=
  files.files.countP fun (location, _) => Path.ofLocation location ∉ visited

/-- Visiting a new file leaves fewer files. -/
theorem IsNew.unread_lt {visited : List Path} {path : Path} (h : IsNew files visited path) :
    unread files (files.identity path :: visited) < unread files visited := by
  obtain ⟨text, hread⟩ := Option.isSome_iff_exists.mp h.1
  obtain ⟨bytes, hbytes, -⟩ := Option.bind_eq_some_iff.mp hread
  obtain ⟨location, hlocation, hcontent⟩ := Option.bind_eq_some_iff.mp hbytes
  have hidentity : files.identity path = Path.ofLocation location := by
    rw [FileTree.identity, FileTree.canonical?, hlocation]
    rfl
  obtain ⟨front, back, hfiles, -⟩ := List.lookup_eq_some_iff.mp hcontent
  have hmono : ∀ some_ : List (Location × ByteArray),
      (some_.countP fun (l, _) => Path.ofLocation l ∉ files.identity path :: visited) ≤
        some_.countP fun (l, _) => Path.ofLocation l ∉ visited := by
    intro some_
    refine List.countP_mono_left fun file _ hfile => ?_
    simp only [decide_eq_true_eq, List.mem_cons, not_or] at hfile ⊢
    exact hfile.2
  have hnew : Path.ofLocation location ∉ visited := hidentity ▸ h.2
  have hold : ¬ Path.ofLocation location ∉ files.identity path :: visited := by
    rw [hidentity]
    exact fun hno => hno List.mem_cons_self
  have hfront := hmono front
  have hback := hmono back
  unfold unread
  rw [hfiles, List.countP_append, List.countP_append,
    List.countP_cons_of_neg (by simpa using hold), List.countP_cons_of_pos (by simpa using hnew)]
  omega

/-- The files that are read, depth-first and each once, where `visited` are not read again. -/
def inclusions (files : FileTree) (options : ReadOptions) (visited : List Path) :
    List Request → List Path
  | [] => []
  | (base?, href) :: rest =>
    match findInclude? files options base? href with
    | none => inclusions files options visited rest
    | some path =>
      if IsNew files visited path then
        path :: inclusions files options (files.identity path :: visited)
          (requestsIn files options path ++ rest)
      else inclusions files options visited rest
termination_by asked => (unread files visited, asked.length)
decreasing_by
  · exact Prod.Lex.right _ (Nat.lt_succ_self _)
  · exact Prod.Lex.left _ _ (IsNew.unread_lt ‹_›)
  · exact Prod.Lex.right _ (Nat.lt_succ_self _)

section Inclusions

variable {visited visited' : List Path} {base? : Option Path} {href : String} {path : Path}
  {asked rest : List Request}

theorem inclusions_cons_of_skip
    (h : ∀ path, findInclude? files options base? href = some path → ¬ IsNew files visited path) :
    inclusions files options visited ((base?, href) :: rest) =
      inclusions files options visited rest := by
  rw [inclusions]
  split
  · rfl
  next path hpath => rw [if_neg (h path hpath)]

theorem inclusions_cons_of_new (hfound : findInclude? files options base? href = some path)
    (hnew : IsNew files visited path) :
    inclusions files options visited ((base?, href) :: rest) =
      path :: inclusions files options (files.identity path :: visited)
        (requestsIn files options path ++ rest) := by
  rw [inclusions, hfound]
  dsimp only
  rw [if_pos hnew]

/-- No file is read twice, however its path is written, and none that had been visited. -/
theorem nodup_inclusions :
    ((inclusions files options visited asked).map files.identity).Nodup ∧
      ∀ p ∈ (inclusions files options visited asked).map files.identity, p ∉ visited := by
  induction visited, asked using inclusions.induct files options with
  | case1 visited => simp [inclusions]
  | case2 visited base? href rest hnone ih =>
    rw [inclusions_cons_of_skip fun path hpath => absurd hpath (by rw [hnone]; exact nofun)]
    exact ih
  | case3 visited base? href rest path hpath hnew ih =>
    rw [inclusions_cons_of_new hpath hnew, List.map_cons]
    refine ⟨List.nodup_cons.mpr ⟨fun hmem => ih.2 _ hmem List.mem_cons_self, ih.1⟩, ?_⟩
    intro p hp
    rcases List.mem_cons.mp hp with rfl | hp
    · exact hnew.2
    · exact fun hvisited => ih.2 p hp (List.mem_cons_of_mem _ hvisited)
  | case4 visited base? href rest path hpath hnew ih =>
    rw [inclusions_cons_of_skip fun found hfound => by
      rw [hpath] at hfound; exact Option.some.inj hfound ▸ hnew]
    exact ih

/-- What a file that is read asks for is read as well, unless it had been visited. -/
theorem inclusions_closed {asking : Option Path × String}
    (hasked : asking ∈ asked ∨
      ∃ p ∈ inclusions files options visited asked, asking ∈ requestsIn files options p)
    (hfound : findInclude? files options asking.1 asking.2 = some path)
    (hread : (files.readText? path).isSome) :
    files.identity path ∈ visited ∨
      files.identity path ∈ (inclusions files options visited asked).map files.identity := by
  induction visited, asked using inclusions.induct files options with
  | case1 visited => simp [inclusions] at hasked
  | case2 visited base? href rest hnone ih =>
    rw [inclusions_cons_of_skip fun path hpath => absurd hpath (by rw [hnone]; exact nofun)] at *
    refine ih (hasked.imp_left fun hmem => ?_)
    rcases List.mem_cons.mp hmem with rfl | hmem
    · rw [hnone] at hfound
      cases hfound
    · exact hmem
  | case3 visited base? href rest first hfirst hnew ih =>
    rw [inclusions_cons_of_new hfirst hnew] at *
    rw [List.map_cons, List.mem_cons]
    by_cases hself : asking = (base?, href)
    · rw [hself, hfirst] at hfound
      exact .inr (.inl (congrArg files.identity (Option.some.inj hfound).symm))
    have hasked' : asking ∈ requestsIn files options first ++ rest ∨
        ∃ p ∈ inclusions files options (files.identity first :: visited)
          (requestsIn files options first ++ rest), asking ∈ requestsIn files options p := by
      rcases hasked with hmem | ⟨p, hp, hmem⟩
      · rcases List.mem_cons.mp hmem with h | hmem
        · exact absurd h hself
        · exact .inl (List.mem_append_right _ hmem)
      · rcases List.mem_cons.mp hp with rfl | hp
        · exact .inl (List.mem_append_left _ hmem)
        · exact .inr ⟨p, hp, hmem⟩
    rcases ih hasked' with h | h
    · rcases List.mem_cons.mp h with h | h
      · exact .inr (.inl h)
      · exact .inl h
    · exact .inr (.inr h)
  | case4 visited base? href rest first hfirst hnew ih =>
    rw [inclusions_cons_of_skip fun found hfound => by
      rw [hfirst] at hfound; exact Option.some.inj hfound ▸ hnew] at *
    by_cases hself : asking = (base?, href)
    · rw [hself, hfirst] at hfound
      cases hfound
      by_contra hno
      exact hnew ⟨hread, fun hvisited => hno (.inl hvisited)⟩
    · refine ih (hasked.imp_left fun hmem => ?_)
      exact (List.mem_cons.mp hmem).resolve_left hself

end Inclusions

/-! ## Importing is the walk -/

/-- Reading the files asked for means to read these ones, and leaves those visited. -/
structure Reads (files : FileTree) (options : ReadOptions) (visited : List Path)
    (asked : List Request) (read visited' : List Path) : Prop where
  order : ∀ rest, inclusions files options visited (asked ++ rest) =
    read ++ inclusions files options visited' rest
  unread_le : unread files visited' ≤ unread files visited

section Reads

variable {visited visited₁ visited₂ read read₁ read₂ : List Path} {asked₁ asked₂ : List Request}
  {base? : Option Path} {href : String} {path : Path}

theorem Reads.nil : Reads files options visited [] [] visited := ⟨fun _ => rfl, Nat.le_refl _⟩

theorem Reads.append (h₁ : Reads files options visited asked₁ read₁ visited₁)
    (h₂ : Reads files options visited₁ asked₂ read₂ visited₂) :
    Reads files options visited (asked₁ ++ asked₂) (read₁ ++ read₂) visited₂ := by
  refine ⟨fun rest => ?_, Nat.le_trans h₂.unread_le h₁.unread_le⟩
  rw [List.append_assoc, h₁.order, h₂.order, List.append_assoc]

theorem Reads.skip
    (h : ∀ path, findInclude? files options base? href = some path → ¬ IsNew files visited path) :
    Reads files options visited [(base?, href)] [] visited :=
  ⟨fun _ => inclusions_cons_of_skip h, Nat.le_refl _⟩

theorem Reads.file (hfound : findInclude? files options base? href = some path)
    (hnew : IsNew files visited path)
    (h : Reads files options (files.identity path :: visited) (requestsIn files options path)
      read visited') :
    Reads files options visited [(base?, href)] (path :: read) visited' := by
  refine ⟨fun rest => ?_, Nat.le_trans h.unread_le (Nat.le_of_lt hnew.unread_lt)⟩
  rw [List.singleton_append, inclusions_cons_of_new hfound hnew, h.order, List.cons_append]

end Reads

section Nested

variable {visited : List Path} {depth : Nat} {d : Document} {path : Path}

/-- The document that a file holds, with the elements of other files. -/
def withFiles (files : FileTree) (d : Document) (read : List Path) : Document :=
  d.addNew (read.flatMap (writtenIn files))

theorem withFiles_withFiles (read more : List Path) :
    (d.withFiles files read).withFiles files more = d.withFiles files (read ++ more) := by
  rw [withFiles, withFiles, addNew_addNew, withFiles, List.flatMap_append]

theorem sourceUri_of_mem_writtenIn {p : Path} {e : Element} (he : e ∈ writtenIn files p) :
    e.sourceUri = some p.text := by
  unfold writtenIn at he
  split at he
  · obtain ⟨e', -, rfl⟩ := List.mem_map.mp he
    rfl
  · exact absurd he List.not_mem_nil

/-- Importing a file together with what it includes is importing all these files. -/
theorem importLibrary_withFiles {own : Document} {hrefs : List String} {read : List Path}
    (hown : readAlone files path = .ok (own, hrefs)) (d : Document) :
    d.importLibrary (withFiles files { own with source? := some path } read) =
      d.withFiles files (path :: read) := by
  have howned : own.elements.map (importedFrom (some path)) = writtenIn files path := by
    rw [writtenIn, hown]
    refine List.map_congr_left fun e he => ?_
    rw [importedFrom, sourceUri_of_readAlone hown he]
    rfl
  have hothers : ∀ e ∈ firstOfEachName (own.elements.map (·.name)) (read.flatMap (writtenIn files)),
      importedFrom (some path) e = e := by
    intro e he
    obtain ⟨p, -, hp⟩ := List.mem_flatMap.mp (firstOfEachName_sublist.subset he)
    rw [importedFrom, sourceUri_of_mem_writtenIn hp]
  have hnames : (writtenIn files path).map (·.name) = own.elements.map (·.name) := by
    rw [← howned, List.map_map]
    exact List.map_congr_left fun e _ => importedFrom_name (some path) e
  rw [importLibrary_eq, withFiles, elements_addNew, List.map_append]
  change d.addNew (own.elements.map (importedFrom (some path)) ++
    (firstOfEachName (own.elements.map (·.name)) _).map (importedFrom (some path))) = _
  rw [howned, List.map_congr_left hothers, List.map_id',
    addNew_append_firstOfEachName fun name hname => hnames ▸ hname]
  rfl

/-- The document after an attempt to read another one for it. -/
def takeIn (d : Document) : Except DocumentError Document → Document
  | .ok included => d.importLibrary included
  | .error _ => d

section Steps

variable {base? : Option Path} {href : String} {hrefs : List String}
  {read : List Path → Path → Except DocumentError Document × List Path}

theorem importIncludes_cons_of_skip
    (h : ∀ path, findInclude? files options base? href = some path →
      files.identity path ∈ visited) :
    importIncludes files options base? read (d, visited) (href :: hrefs) =
      importIncludes files options base? read (d, visited) hrefs := by
  unfold importIncludes
  split
  · rfl
  · rw [List.foldl_cons]
    dsimp only
    split
    · rfl
    next path hpath => rw [if_pos (List.contains_iff_mem.mpr (h path hpath))]

theorem importIncludes_cons (hskip : options.skipIncludes = false)
    (hfound : findInclude? files options base? href = some path)
    (hnew : files.identity path ∉ visited) :
    importIncludes files options base? read (d, visited) (href :: hrefs) =
      importIncludes files options base? read
        (d.takeIn (read visited path).1, (read visited path).2) hrefs := by
  unfold importIncludes
  rw [hskip, if_neg Bool.false_ne_true, if_neg Bool.false_ne_true, List.foldl_cons, hfound]
  dsimp only
  rw [if_neg (mt List.contains_iff_mem.mp hnew)]
  rcases read visited path with ⟨result, visited'⟩
  cases result <;> rfl

end Steps

theorem readNested_unreadable (h : files.readText? path = none) :
    readNested files options depth visited path = (.error (.unreadable path), visited) := by
  cases depth with
  | zero => rfl
  | succ depth =>
    rw [readNested, h]

/-- Importing the files asked for is walking through them, if reading nests deep enough. -/
def ImportsAt (files : FileTree) (options : ReadOptions) (depth : Nat) : Prop :=
  ∀ visited d base? hrefs, unread files visited ≤ depth → ∃ read visited',
    importIncludes files options base? (readNested files options depth) (d, visited) hrefs =
      (d.withFiles files read, visited') ∧
    Reads files options visited (requests options base? hrefs) read visited'

/-- Reading a new file takes in the file and what the walk finds below it, if reading nests deep
enough. -/
def TakesInAt (files : FileTree) (options : ReadOptions) (depth : Nat) : Prop :=
  ∀ visited path d, IsNew files visited path → unread files visited ≤ depth → ∃ read visited',
    takeIn d (readNested files options depth visited path).1 = withFiles files d (path :: read) ∧
    (readNested files options depth visited path).2 = visited' ∧
    Reads files options (files.identity path :: visited) (requestsIn files options path)
      read visited'

theorem ImportsAt.takesIn (himports : ImportsAt files options depth) :
    TakesInAt files options (depth + 1) := by
  intro visited path d hnew hdepth
  obtain ⟨text, htext⟩ := Option.isSome_iff_exists.mp hnew.1
  have hless := hnew.unread_lt
  cases hparse : parseText path.text text with
  | error e =>
    have halone : readAlone files path = .error e := by rw [readAlone, htext]; exact hparse
    refine ⟨[], files.identity path :: visited, ?_, ?_, ?_⟩
    · rw [readNested, htext]
      simp only [hparse]
      rw [takeIn, withFiles, List.flatMap_singleton, writtenIn, halone, addNew_nil]
    · rw [readNested, htext]
      simp only [hparse]
    · rw [requestsIn, halone]
      exact .nil
  | ok parsed =>
    obtain ⟨own, hrefs⟩ := parsed
    have halone : readAlone files path = .ok (own, hrefs) := by rw [readAlone, htext]; exact hparse
    obtain ⟨read, visited', himport, hreads⟩ := himports (files.identity path :: visited)
      { own with source? := some path } path.parent? hrefs (by omega)
    refine ⟨read, visited', ?_, ?_, ?_⟩
    · rw [readNested, htext]
      simp only [hparse, himport]
      exact importLibrary_withFiles halone d
    · rw [readNested, htext]
      simp only [hparse, himport]
    · rw [requestsIn, halone]
      exact hreads

theorem TakesInAt.imports (hnested : TakesInAt files options depth) :
    ImportsAt files options depth := by
  intro visited d base? hrefs hdepth
  by_cases hskip : options.skipIncludes = true
  · refine ⟨[], visited, ?_, ?_⟩
    · rw [importIncludes, if_pos hskip, withFiles, List.flatMap_nil, addNew_nil]
    · rw [requests, if_pos hskip]
      exact .nil
  rw [Bool.not_eq_true] at hskip
  have hrequests : ∀ hrefs, requests options base? hrefs = hrefs.map (base?, ·) := by
    intro hrefs
    rw [requests, hskip, if_neg Bool.false_ne_true]
  rw [hrequests]
  induction hrefs generalizing visited d with
  | nil =>
    refine ⟨[], visited, ?_, .nil⟩
    rw [importIncludes, hskip, if_neg Bool.false_ne_true, withFiles, List.flatMap_nil, addNew_nil]
    rfl
  | cons href hrefs ih =>
    -- What the first file asked for does, and then the others.
    suffices hfirst : ∃ read visited',
        importIncludes files options base? (readNested files options depth) (d, visited)
            (href :: hrefs) =
          importIncludes files options base? (readNested files options depth)
            (d.withFiles files read, visited') hrefs ∧
        Reads files options visited [(base?, href)] read visited' by
      obtain ⟨read, visited₁, heq, hreads⟩ := hfirst
      obtain ⟨more, visited', himport, hmore⟩ := ih visited₁ (d.withFiles files read)
        (Nat.le_trans hreads.unread_le hdepth)
      refine ⟨read ++ more, visited', ?_, ?_⟩
      · rw [heq, himport, withFiles_withFiles]
      · rw [List.map_cons, ← List.singleton_append]
        exact hreads.append hmore
    have hnone : d.withFiles files [] = d := addNew_nil
    by_cases hvisited : ∀ path, findInclude? files options base? href = some path →
        files.identity path ∈ visited
    · refine ⟨[], visited, ?_, .skip fun path hpath hnew => hnew.2 (hvisited path hpath)⟩
      rw [importIncludes_cons_of_skip hvisited, hnone]
    · push Not at hvisited
      obtain ⟨path, hfound, hunvisited⟩ := hvisited
      rw [importIncludes_cons hskip hfound hunvisited]
      cases htext : files.readText? path with
      | none =>
        refine ⟨[], visited, ?_, .skip fun other hother hnew => ?_⟩
        · rw [readNested_unreadable htext, hnone]
          rfl
        · rw [hfound] at hother
          rw [← Option.some.inj hother, IsNew, htext] at hnew
          exact absurd hnew.1 Bool.false_ne_true
      | some text =>
        have hnew : IsNew files visited path := ⟨by rw [htext]; rfl, hunvisited⟩
        obtain ⟨read, visited', htake, hleft, hreads⟩ := hnested visited path d hnew hdepth
        refine ⟨path :: read, visited', ?_, .file hfound hnew hreads⟩
        rw [htake, hleft]

theorem importsAt (files : FileTree) (options : ReadOptions) (depth : Nat) :
    ImportsAt files options depth := by
  induction depth with
  | zero =>
    have hnested : TakesInAt files options 0 := by
      intro visited path d hnew hdepth
      have hless := hnew.unread_lt
      omega
    exact hnested.imports
  | succ depth ih => exact ih.takesIn.imports

end Nested

/-! ## Reading a file -/

/-- The files that are read after a file, which it asks for directly or not. -/
def included (files : FileTree) (options : ReadOptions) (path : Path) : List Path :=
  inclusions files options [files.identity path] (requestsIn files options path)

theorem unread_nil (files : FileTree) : unread files [] = files.files.length := by
  unfold unread
  rw [List.countP_eq_length]
  intro file _
  simp

theorem ofFile_eq (files : FileTree) (options : ReadOptions) (path : Path) :
    ofFile files options path = (readAlone files path).map fun (main, _) =>
      withFiles files { main with source? := some path } (included files options path) := by
  unfold ofFile nestingBound included
  cases htext : files.readText? path with
  | none => rw [readNested_unreadable htext, readAlone, htext]; rfl
  | some text =>
    cases hparse : parseText path.text text with
    | error e =>
      have halone : readAlone files path = .error e := by rw [readAlone, htext]; exact hparse
      rw [halone, readNested, htext]
      simp only [hparse]
      rfl
    | ok parsed =>
      obtain ⟨main, hrefs⟩ := parsed
      have halone : readAlone files path = .ok (main, hrefs) := by
        rw [readAlone, htext]
        exact hparse
      have hnew : IsNew files [] path := ⟨by rw [htext]; rfl, List.not_mem_nil⟩
      have hdepth : unread files [files.identity path] ≤ files.files.length :=
        unread_nil files ▸ Nat.le_of_lt hnew.unread_lt
      obtain ⟨read, visited', himport, hreads⟩ := importsAt files options files.files.length
        [files.identity path] { main with source? := some path } path.parent? hrefs hdepth
      have hread := hreads.order []
      rw [List.append_nil, inclusions, List.append_nil] at hread
      rw [requestsIn, halone, readNested, htext]
      simp only [hparse, himport]
      rw [hread]
      rfl

/-- What reading a file gives: its own elements, and after them the first of each other name among
the elements of the files it includes. These are walked through depth-first: each of them is read
once, faulty ones hold nothing, and each file asked for by one of them that is there is among them.
Its own elements come from no other file, and the others from the file that holds them. -/
theorem ofFile_includes (files : FileTree) (options : ReadOptions) (path : Path) :
    (ofFile files options path = (readAlone files path).map fun (main, _) =>
      { root := { main.root with
          children := main.elements ++ firstOfEachName (main.elements.map (·.name))
            ((included files options path).flatMap (writtenIn files)) }
        source? := some path }) ∧
    (∀ main hrefs, readAlone files path = .ok (main, hrefs) →
      ∀ e ∈ main.elements, e.sourceUri = none) ∧
    (∀ p ∈ included files options path, ∀ e ∈ writtenIn files p, e.sourceUri = some p.text) ∧
    ((path :: included files options path).map files.identity).Nodup ∧
    ∀ p ∈ path :: included files options path, ∀ asking ∈ requestsIn files options p,
      ∀ found, findInclude? files options asking.1 asking.2 = some found →
        (files.readText? found).isSome →
        files.identity found ∈ (path :: included files options path).map files.identity := by
  refine ⟨ofFile_eq files options path, fun main hrefs h e he => sourceUri_of_readAlone h he,
    fun p _ e he => sourceUri_of_mem_writtenIn he, ?_, ?_⟩
  · rw [List.map_cons, List.nodup_cons]
    exact ⟨fun hmem => nodup_inclusions.2 _ hmem List.mem_cons_self, nodup_inclusions.1⟩
  · intro p hp asking hasking found hfound hread
    have hasked : asking ∈ requestsIn files options path ∨
        ∃ q ∈ included files options path, asking ∈ requestsIn files options q := by
      rcases List.mem_cons.mp hp with rfl | hp
      · exact .inl hasking
      · exact .inr ⟨p, hp, hasking⟩
    rw [List.map_cons, List.mem_cons]
    exact (inclusions_closed hasked hfound hread).imp_left List.mem_singleton.mp

end Document

end MaterialViewer
