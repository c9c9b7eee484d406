import MaterialViewer.Proofs.Viewer.Frames
import MaterialViewer.Proofs.Viewer.Single

/-!
# Proofs: changes of images

A session is used while files change, and is told of changes of images, at once or later. Once it has
been told of all of them, nothing in its cache is stale, and the next frame shows for an image the
picture of its file as it is. But the file is the one that was found when the image was first looked
up. So the frame shows what a session would show that was started just now, if and only if the file
found then and the one found first on the search path now have the same picture.
-/

namespace MaterialViewer

/-- The path can be that of an image: it is neither that of a document nor that of a source. -/
structure Path.MayNameImage (path : Path) : Prop where
  nonempty : path.text ≠ ""
  extension : [Document.fileExtension, "glsl"].contains (path.extension?.getD "") = false

/-- The event tells of a change of the file at a path. -/
inductive FileEvent.Reports (path : Path) : FileEvent → Prop
  | created : Reports path (.created path)
  | modified : Reports path (.modified path)
  | deleted : Reports path (.deleted path)

/-- The file of an image that is found first on the search path. -/
def ShaderBinding.foundFirst? (files : FileTree) (search : SearchPath) (tile? : Option String)
    (v : ShaderVariable) : Option Path :=
  (imageName? tile? v).map fun name => search.find files ⟨name⟩

namespace Session

variable {δ : Type} [Device δ] {s s' : Session (Traced δ)} {files files' : FileTree}
  {changed : List Path} {path : Path} {event : FileEvent} {m : Material} {b : ShaderBinding}
  {v : ShaderVariable} {n : Nat}

/-! ## Sessions that are told of changes -/

/-- The session comes about by operations while files change, which are now these. It has been told
of the changes of images, but for those under some keys. Whatever has no picture may change without
notice. -/
inductive Follows : Session (Traced δ) → FileTree → List Path → Prop
  | start {settings : Settings} {device : δ} {files : FileTree} {s : Session (Traced δ)}
      (hproper : Path.IsProper files.workingDirectory)
      (h : Session.start settings (Traced.start device) files = .ok s) : Follows s files []
  | perform {s : Session (Traced δ)} {files : FileTree} {changed : List Path}
      (h : Follows s files changed) (op : Operation) :
      Follows (s.perform files op).2 files changed
  | change {s : Session (Traced δ)} {files files' : FileTree} {changed : List Path}
      (h : Follows s files changed) {path : Path} (htext : path.text ≠ "")
      (hchange : files.ChangedOnlyAt files' path) :
      Follows s files' (ImageCache.key files path :: changed)
  | edit {s : Session (Traced δ)} {files files' : FileTree} {changed : List Path}
      (h : Follows s files changed)
      (hdirectory : files'.workingDirectory = files.workingDirectory)
      (hpictures : ∀ key, files'.picture? key = files.picture? key) : Follows s files' changed
  | report {s : Session (Traced δ)} {files : FileTree} {changed : List Path}
      (h : Follows s files changed) {path : Path} (hpath : path.MayNameImage) {event : FileEvent}
      (hevent : event.Reports path) :
      Follows (s.handleEvent files event).2 files
        (changed.filter (· ≠ ImageCache.key files path))

/-- The cache of the session is faithful to the files, but for those under some keys, and its bindings
are those of generated shaders. -/
structure Tracks (s : Session (Traced δ)) (files : FileTree) (changed : List Path) : Prop where
  proper : Path.IsProper files.workingDirectory
  cache : s.renderer.Faithful files changed
  regular : s.AllBindings ShaderBinding.Regular

/-- An event of an image drops its entry. -/
theorem handleEvent_image (s : Session δ) (files : FileTree) (hpath : path.MayNameImage)
    (hevent : event.Reports path) : s.handleEvent files event =
      (.ok (), { s with renderer := s.renderer.invalidate files path }) := by
  cases hevent <;> simp only [handleEvent, hpath.extension, Bool.false_eq_true, if_false]

theorem Moves.tracks (h : Moves files s n s') (hs : s.Tracks files changed) :
    s'.Tracks files changed := by
  obtain ⟨hcurrent, hsupplies⟩ := h.supplies hs.cache.current
  refine ⟨hs.proper, hcurrent.faithful (fun _ => hsupplies.mem) fun key hkey => ?_, ?_⟩
  · exact (h.keys hkey).elim (hs.cache.keys key) id
  · exact h.allBindings hs.regular (fun _ _ _ _ _ program hshader =>
      ShaderBinding.regular_new hshader program) fun b b' hfinds hb => hb.alike hfinds.alike

theorem Follows.tracks (h : s.Follows files changed) : s.Tracks files changed := by
  induction h with
  | start hproper h =>
    obtain ⟨-, hrenderer, hscene⟩ := start_eq h
    refine ⟨hproper, ?_, fun scene hsome => nomatch hscene.symm.trans hsome⟩
    rw [hrenderer]
    exact ⟨⟨rfl, nofun⟩, nofun, nofun⟩
  | perform _ op ih => exact (perform_moves _ _ op).tracks ih
  | change _ htext hchange ih =>
    exact ⟨hchange.workingDirectory ▸ ih.proper, ih.cache.change ih.proper htext hchange, ih.regular⟩
  | edit _ hdirectory hpictures ih =>
    exact ⟨hdirectory ▸ ih.proper, ih.cache.congr hdirectory fun key _ _ => hpictures key, ih.regular⟩
  | report _ hpath hevent ih =>
    rw [handleEvent_image _ _ hpath hevent]
    exact ⟨ih.proper, ih.cache.invalidate _, ih.regular⟩

/-- A session that is told of the last change has been told of all. -/
theorem Follows.told (h : s.Follows files changed)
    (hchanged : ∀ key ∈ changed, key = ImageCache.key files path) (hpath : path.MayNameImage)
    (hchange : files.ChangedOnlyAt files' path) (hevent : event.Reports path) :
    (s.handleEvent files' event).2.Follows files' [] := by
  have hall : (ImageCache.key files path :: changed).filter (· ≠ ImageCache.key files' path) = [] := by
    refine List.filter_eq_nil_iff.2 fun key hmem => ?_
    rw [(List.mem_cons.1 hmem).elim id (hchanged key), ImageCache.key_eq, ImageCache.key_eq,
      hchange.workingDirectory]
    simp
  exact hall ▸ (h.change hpath.nonempty hchange).report hpath hevent

/-- Once a session has been told of all changes, the next frame shows for an image the picture of its
file, or else the fallback color. -/
theorem Follows.frameShows_iff (h : s.Follows files []) (hm : s.selected? = some m)
    (hb : m.binding? = some b) (hv : v ∈ b.shader.imageUniforms)
    (hplain : v.name ∉ [Uniforms.envRadiance, Uniforms.envIrradiance])
    (hfresh : (s.draw files).2.renderer.device.newTextures.Nodup) (image : Image) :
    s.FrameShows files v.name image ↔
      files.shown? (b.imagePath? files s.settings.searchPath m.tile? v) s.settings.fallback? =
        some image := by
  obtain ⟨scene, hscene, hselected⟩ := Option.bind_eq_some_iff.1 hm
  have hregular := h.tracks.regular scene hscene m (List.mem_of_getElem? hselected) b hb
  exact Session.frameShows_iff hm hb hregular h.tracks.cache hv hplain hfresh image

/-! ## Sessions that were just started -/

/-- The session was started with these settings, and used while the files stayed as they are. -/
def IsFresh (f : Session (Traced δ)) (files : FileTree) (settings : Settings) : Prop :=
  ∃ device s ops, Session.start settings (Traced.start device) files = .ok s ∧
    f = s.performAll files ops

variable {f : Session (Traced δ)} {settings : Settings}

theorem IsFresh.follows (h : f.IsFresh files settings)
    (hproper : Path.IsProper files.workingDirectory) : f.Follows files [] := by
  obtain ⟨device, s, ops, hstart, rfl⟩ := h
  exact performAll_keeps (P := fun s => s.Follows files []) (fun _ op hs => hs.perform op)
    (.start hproper hstart) ops

/-- The files that were found for images are those that are found first. -/
theorem IsFresh.found (h : f.IsFresh files settings) :
    f.settings = settings ∧ f.AllBindings fun b =>
      ∀ entry ∈ b.found, entry.2 = settings.searchPath.find files ⟨entry.1⟩ := by
  obtain ⟨device, s, ops, hstart, rfl⟩ := h
  obtain ⟨hsettings, -, hscene⟩ := start_eq hstart
  refine performAll_keeps (P := fun s => s.settings = settings ∧ s.AllBindings fun b =>
    ∀ entry ∈ b.found, entry.2 = settings.searchPath.find files ⟨entry.1⟩) ?_
    ⟨hsettings, fun scene hsome => nomatch hscene.symm.trans hsome⟩ ops
  rintro s op ⟨hsettings, hfound⟩
  have hmoves := s.perform_moves files op
  refine ⟨hmoves.settings_eq.trans hsettings, hmoves.allBindings hfound
    (fun _ _ _ _ _ _ _ _ hentry => nomatch hentry) ?_⟩
  rintro b b' hfinds hb entry hentry
  obtain ⟨more, heq, hmore⟩ := hfinds.found
  rw [heq] at hentry
  rcases List.mem_append.1 hentry with hold | hnew
  · exact hb entry hold
  · exact hsettings ▸ hmore entry hnew

theorem imagePath?_eq_foundFirst? {search : SearchPath}
    (h : ∀ entry ∈ b.found, entry.2 = search.find files ⟨entry.1⟩) (tile? : Option String)
    (v : ShaderVariable) :
    b.imagePath? files search tile? v = ShaderBinding.foundFirst? files search tile? v := by
  unfold ShaderBinding.imagePath? ShaderBinding.foundFirst?
  refine congrArg (Option.map · _) (funext fun name => ?_)
  cases hfound : b.found? name with
  | none => rfl
  | some path => exact h _ (Ordered.mem_of_get? hfound)

/-- A session that was just started shows for an image the picture of the file found first. -/
theorem IsFresh.frameShows_iff (h : f.IsFresh files settings)
    (hproper : Path.IsProper files.workingDirectory) (hm : f.selected? = some m)
    (hb : m.binding? = some b) (hv : v ∈ b.shader.imageUniforms)
    (hplain : v.name ∉ [Uniforms.envRadiance, Uniforms.envIrradiance])
    (hfresh : (f.draw files).2.renderer.device.newTextures.Nodup) (image : Image) :
    f.FrameShows files v.name image ↔
      files.shown? (ShaderBinding.foundFirst? files settings.searchPath m.tile? v)
        settings.fallback? = some image := by
  obtain ⟨hsettings, hfound⟩ := h.found
  obtain ⟨scene, hscene, hselected⟩ := Option.bind_eq_some_iff.1 hm
  have hpath := imagePath?_eq_foundFirst?
    (hfound scene hscene m (List.mem_of_getElem? hselected) b hb) m.tile? v
  rw [(h.follows hproper).frameShows_iff hm hb hv hplain hfresh, hsettings, hpath]

/-! ## The next frame -/

theorem draw_isOk {s : Session δ} (hm : s.selected? = some m) (hb : m.binding? = some b)
    (files : FileTree) : (s.draw files).1 = .ok () := by
  obtain ⟨scene, hscene, hselected⟩ := Option.bind_eq_some_iff.1 hm
  rw [draw_eq hscene hselected hb]

/-- The path of the image in the directory of the search path. -/
def libraryPath : Path := ⟨"lib/w.tga"⟩

theorem mayNameImage_libraryPath : libraryPath.MayNameImage := ⟨by decide, by decide +kernel⟩

/-- The image in the directory comes or goes. -/
theorem changedOnlyAt_libraryPath {place place' : Place} (hplace : place ≠ .beside)
    (hplace' : place' ≠ .beside) :
    (pictureFiles place).ChangedOnlyAt (pictureFiles place') libraryPath := by
  have hdirectories : (pictureFiles place').directories = (pictureFiles place).directories := by
    cases place <;> cases place' <;> decide +kernel
  have hlocation : libraryPath.lexicalLocation [] = ["lib", "w.tga"] := by decide +kernel
  have hcontent : ∀ place ≠ .beside, ∀ location ≠ ["lib", "w.tga"],
      (pictureFiles place).content? location = (pictureFiles .nowhere).content? location := by
    intro place hplace location hne
    by_cases hdocument : location = ["a.mtlx"]
    · rw [hdocument]
      exact (FileTree.content?_insertFile _ _ _).trans (FileTree.content?_insertFile _ _ _).symm
    · refine (FileTree.content?_insertFile_of_ne hdocument _ _).trans
        (Eq.trans ?_ (FileTree.content?_insertFile_of_ne hdocument _ _).symm)
      cases place with
      | nowhere => rfl
      | beside => exact (hplace rfl).elim
      | library => exact FileTree.content?_insertFile_of_ne hne _ _
  refine ⟨by cases place <;> cases place' <;> rfl, fun location => ?_, fun location hne => ?_⟩
  · unfold FileTree.hasDirectory
    rw [hdirectories]
  · have hdirectory : (pictureFiles place).workingDirectory = [] := by cases place <;> rfl
    rw [hdirectory, hlocation] at hne
    exact (hcontent place' hplace' location hne).trans (hcontent place hplace location hne).symm

/-- The document can be loaded, and its image is looked up. -/
theorem load_library (place : Place) : ∃ r b,
    (pictureSession librarySearch).load (pictureFiles place) ⟨"a.mtlx"⟩ =
      (.ok (), showing librarySearch r pictureLoaded
        ((Material.ofSubset pictureSubset).withBound b)) ∧
    b.shader.imageUniforms = [pictureVariable] ∧
    b.found? "w.tga" = some (librarySearch.find (pictureFiles place) ⟨"w.tga"⟩) := by
  obtain ⟨shader, hoffers, hbinds⟩ := offers_picture (.inr rfl) place
  obtain ⟨p, r, hprogram⟩ := program_tally (pictureSession librarySearch).renderer shader.name
    ⟨shader.vertexSource, shader.pixelSource⟩
  obtain ⟨himages, -, hfound⟩ := hbinds p
  have halike := ((pictureSession librarySearch).afterActivate_draws (pictureFiles place)
    (Material.ofSubset pictureSubset).tile? (.new shader p) r).1.alike
  refine ⟨_, _, load_lone (hoffers _ _) hprogram, halike.shader ▸ himages, ?_⟩
  show (ShaderBinding.lookUpImages (.new shader p) _ _ _).found? "w.tga" = _
  have hlooked := ShaderBinding.found?_lookUpImages (.new shader p) (pictureFiles place)
    librarySearch none (himages ▸ List.mem_singleton_self pictureVariable)
  unfold ShaderBinding.imagePath? at hlooked
  rw [imageName?_picture, Option.bind_some, Option.map_some] at hlooked
  have hnothing : ShaderBinding.found? (.new shader p) "w.tga" = none := rfl
  rw [hnothing, Option.getD_none] at hlooked
  exact hlooked

theorem Follows.numbered {s : Session (Traced Tally)} (h : s.Follows files changed) :
    Tally.Numbered s.renderer.device := by
  have hmoves : ∀ {s s' : Session (Traced Tally)} {files n}, Moves files s n s' →
      Tally.Numbered s.renderer.device → Tally.Numbered s'.renderer.device := fun h hs =>
    h.kept Tally.kept_numbered hs
  induction h with
  | @start _ device _ _ _ h =>
    rw [(start_eq h).2.1]
    exact Tally.numbered_start device
  | perform _ op ih => exact hmoves (perform_moves _ _ op) ih
  | change _ _ _ ih => exact ih
  | edit _ _ _ ih => exact ih
  | @report _ _ _ _ _ _ event _ ih => exact hmoves (perform_moves _ _ (.event event)) ih

/-- On a device that numbers textures none comes about twice. -/
theorem Follows.nodup_draw {s : Session (Traced Tally)} (h : s.Follows files changed) :
    (s.draw files).2.renderer.device.newTextures.Nodup :=
  (h.perform .draw).numbered.nodup

/-- The session that has loaded the document, of whose image it has found the file. -/
theorem exists_library (place : Place) : ∃ (s : Session (Traced Tally)) (m : Material)
    (b : ShaderBinding), s.Follows (pictureFiles place) [] ∧
      s.IsFresh (pictureFiles place) (pictureSession librarySearch).settings ∧
      s.settings = (pictureSession librarySearch).settings ∧ s.selected? = some m ∧
      m.binding? = some b ∧ m.tile? = none ∧ b.shader.imageUniforms = [pictureVariable] ∧
      ∀ files, b.imagePath? files librarySearch none pictureVariable =
        some (librarySearch.find (pictureFiles place) ⟨"w.tga"⟩) := by
  obtain ⟨r, b, hload, himages, hfound⟩ := load_library place
  let s := showing librarySearch r pictureLoaded ((Material.ofSubset pictureSubset).withBound b)
  have hfresh : s.IsFresh (pictureFiles place) (pictureSession librarySearch).settings := by
    refine ⟨{}, pictureSession librarySearch, [.load ⟨"a.mtlx"⟩], start_picture _ _, ?_⟩
    exact (congrArg Prod.snd hload).symm
  have hproper : Path.IsProper (pictureFiles place).workingDirectory := by
    cases place <;> exact nofun
  refine ⟨s, _, b, hfresh.follows hproper, hfresh, rfl, rfl, rfl, rfl, himages, fun files => ?_⟩
  unfold ShaderBinding.imagePath?
  rw [imageName?_picture, Option.map_some, hfound, Option.getD_some]

omit [Device δ] in
theorem settings_library (h : s.settings = (pictureSession librarySearch).settings) :
    s.settings.searchPath = librarySearch ∧ s.settings.fallback? = some .opaqueBlack := by
  rw [h]
  exact ⟨rfl, rfl⟩

/-- What is to be shown for the image. -/
theorem shown?_picture : librarySearch.find (pictureFiles .nowhere) ⟨"w.tga"⟩ = ⟨"w.tga"⟩ ∧
    librarySearch.find (pictureFiles .library) ⟨"w.tga"⟩ = libraryPath ∧
    (∀ path ∈ [⟨"w.tga"⟩, libraryPath], (pictureFiles .nowhere).shown? (some path)
      (some .opaqueBlack) = some (Image.solid .opaqueBlack)) ∧
    (pictureFiles .library).shown? (some ⟨"w.tga"⟩) (some .opaqueBlack) =
      some (Image.solid .opaqueBlack) ∧
    ((pictureFiles .library).shown? (some libraryPath) (some .opaqueBlack)).map (·.isFloat) =
      some false := by
  decide +kernel

end Session

end MaterialViewer
