import MaterialViewer.Proofs.Rendering.Lifecycle
import MaterialViewer.Proofs.Viewer.Invariant
import MaterialViewer.Proofs.Viewer.Moves

/-!
# Proofs: documents with one subset

What loading a document with one subset comes to, and what reading such a document again comes to
after another one, if the shader can be generated and compiled. Then the document of an image, as an
example.
-/

namespace MaterialViewer.Session

section Single

variable {δ : Type} [Device δ] {s : Session δ} {files : FileTree} {path : Path}
  {loaded loaded₀ : LoadedDocument} {subset subset₀ : MaterialSubset} {shader : GeneratedShader}
  {p : CompiledProgram} {r : Renderer δ} {b₀ : ShaderBinding}

/-- The files have a document with one subset, for which this shader is generated. -/
structure Offers (s : Session δ) (files : FileTree) (path : Path) (loaded : LoadedDocument)
    (subset : MaterialSubset) (shader : GeneratedShader) : Prop where
  read : ∃ d, Document.ofFile files { searchPath := s.settings.searchPath } path = .ok d ∧
    d.merge s.library s.settings.modifiers (some s.settings.generator.target) = loaded
  subsets : loaded.subsets = [subset]
  shader : ShaderGenerator.generate { lights := (LightRig.ofDocument loaded.document).kinds }
    loaded.document files subset.element.path
      { s.options with
        transparency := Transparency.isTransparent loaded.document subset.element.path } =
    .ok shader

/-- The scene of a document with one subset. -/
def loneScene (path : Path) (loaded : LoadedDocument) (m : Material) : Scene where
  path := path
  loaded := loaded
  materials := [m]
  lights := LightRig.ofDocument loaded.document
  generator := { lights := (LightRig.ofDocument loaded.document).kinds }
  selection := 0

theorem prepare_lone (h : s.Offers files path loaded subset shader)
    (hprogram : s.renderer.program shader.name ⟨shader.vertexSource, shader.pixelSource⟩ =
      (.ok p, r)) :
    s.prepare files path 0 = (.ok (loneScene path loaded
      { Material.ofSubset subset with state := .generated (.new shader p) }), r) := by
  obtain ⟨⟨d, hread, hloaded⟩, hsubsets, hshader⟩ := h
  have hgenerate : (Material.ofSubset subset).generate
      { lights := (LightRig.ofDocument loaded.document).kinds } loaded.document files s.options
        s.renderer =
      (.ok { Material.ofSubset subset with state := .generated (.new shader p) }, r) := by
    unfold Material.generate
    simp only [Material.ofSubset, Material.new] at hshader ⊢
    rw [hshader]
    simp only [hprogram]
  unfold prepare
  rw [hread]
  dsimp only
  rw [hloaded, hsubsets]
  simp only [List.map_cons, List.map_nil, List.length_singleton, Nat.zero_lt_one, if_true,
    List.getElem?_cons_zero]
  rw [hgenerate]
  rfl

theorem install_lone {m : Material} {b : ShaderBinding} (hb : m.binding? = some b)
    (r : Renderer δ) : s.install files (loneScene path loaded m) r = (.ok (), { s with
      renderer := (s.afterActivate files m.tile? b r).2
      scene? := some (loneScene path loaded
        (m.withBound (s.afterActivate files m.tile? b r).1)) }) := by
  have hfirst : (loneScene path loaded m).selected? = some m := rfl
  unfold install
  rw [hfirst]
  dsimp only
  rw [s.activate_eq files hb]
  rfl

/-- A document that is offered is loaded. -/
theorem load_lone (h : s.Offers files path loaded subset shader)
    (hprogram : s.renderer.program shader.name ⟨shader.vertexSource, shader.pixelSource⟩ =
      (.ok p, r)) :
    let m := Material.ofSubset subset
    let after := s.afterActivate files m.tile? (.new shader p) r
    s.load files path = (.ok (), { s with
      renderer := after.2
      scene? := some (loneScene path loaded (m.withBound after.1)) }) := by
  intro m after
  unfold load
  rw [prepare_lone h hprogram]
  exact install_lone rfl r

/-- A document that is offered is read again in place of another one. -/
theorem reload_lone {m₀ : Material} (hscene : s.scene? = some (loneScene path loaded₀ m₀))
    (h : s.Offers files path loaded subset shader)
    (hprogram : s.renderer.program shader.name ⟨shader.vertexSource, shader.pixelSource⟩ =
      (.ok p, r)) :
    let m := Material.ofSubset subset
    let after := s.afterActivate files m.tile? (.new shader p)
      (m₀.imageFiles.foldl (·.invalidate files ·) r)
    ∃ held, s.reload files = (.ok (), { s with
      renderer := after.2.purgePrograms held
      scene? := some (loneScene path loaded (m.withBound after.1)) }) := by
  intro m after
  refine ⟨(loneScene path loaded { m with state := .generated (.new shader p) }).programs, ?_⟩
  unfold reload
  rw [hscene]
  dsimp only
  have himages : (loneScene path loaded₀ m₀).materials.flatMap Material.imageFiles =
      m₀.imageFiles := by
    show List.flatMap _ [m₀] = _
    rw [List.flatMap_cons, List.flatMap_nil, List.append_nil]
  have hprepare : s.prepare files (loneScene path loaded₀ m₀).path
      (loneScene path loaded₀ m₀).selection = _ := prepare_lone h hprogram
  rw [hprepare]
  dsimp only
  rw [himages, install_lone (b := .new shader p) rfl]
  rfl

end Single

/-! ## A document with an image -/

/-- The device of a trace that takes everything compiles everything. -/
theorem program_tally (r : Renderer (Traced Tally)) (name : String) (source : ProgramSource) :
    ∃ p r', r.program name source = (.ok p, r') :=
  r.exists_program name source rfl

/-- The text of a document with one material, whose shader reads an image. -/
def pictureText : List Char :=
  ["<materialx>", "<nodedef name=\"N\" node=\"s\" ", "type=\"float\">",
    "<input name=\"f\" type=\"filename\" ", "value=\"w.tga\"/></nodedef>",
    "<implementation name=\"I\" ", "nodedef=\"N\" language=\"genglsl\" ",
    "sourcecode=\"1.0\"/>", "<material name=\"A\">", "<shaderref name=\"r\" node=\"s\"/>",
    "</material></materialx>"
  ].flatMap String.toList

/-- The document with this text. -/
def pictureDocument : Document where
  root := { category := "materialx", name := "", children := [
    { category := "nodedef", name := "N", attributes := [("node", "s"), ("type", "float")]
      children := [{ category := "input", name := "f"
                     attributes := [("type", "filename"), ("value", "w.tga")] }] },
    { category := "implementation", name := "I"
      attributes := [("nodedef", "N"), ("language", "genglsl"), ("sourcecode", "1.0")] },
    { category := "material", name := "A", children := [
      { category := "shaderref", name := "r", attributes := [("node", "s")] }] }] }
  source? := some ⟨"a.mtlx"⟩

set_option maxRecDepth 100000 in
theorem ofEvents_pictureText : Element.ofEvents (Markup.eventsFrom [] pictureText) =
    .ok (pictureDocument.root, []) := by cbv

/-- The bytes of an image file with one pixel. -/
def pictureBytes : ByteArray :=
  ⟨#[0, 0, 2, 0, 0, 0, 0, 0, 0, 0, 0, 0, 1, 0, 1, 0, 24, 32, 1, 2, 9]⟩

/-- Where the image of the document is. -/
inductive Place
  | nowhere
  | beside
  | library

/-- The location of the image. -/
def Place.location? : Place → Option Location
  | nowhere => none
  | beside => some ["w.tga"]
  | library => some ["lib", "w.tga"]

/-- The files with this document and its image, with a directory that the search path can name. -/
def pictureFiles (place : Place) : FileTree :=
  let empty : FileTree := ⟨[], [[], ["lib"]], []⟩
  (place.location?.elim empty (empty.insertFile · pictureBytes)).insertFile ["a.mtlx"]
    (String.ofList pictureText).toUTF8

theorem ofFile_picture (place : Place) (options : Document.ReadOptions) :
    Document.ofFile (pictureFiles place) options ⟨"a.mtlx"⟩ = .ok pictureDocument := by
  have hresolve : (pictureFiles place).resolve ⟨"a.mtlx"⟩ = some ["a.mtlx"] := by
    cases place <;> decide +kernel
  have hstart : pictureText.head? ≠ some '\uFEFF' := by decide +kernel
  refine Document.ofFile_ok (FileTree.readText?_insertFile hresolve) ?_ options
  rw [Markup.events_ofList hstart]
  exact ofEvents_pictureText

/-- A session that was started without libraries, over a trace. -/
def pictureSession (search : SearchPath) : Session (Traced Tally) where
  settings := { libraryFolders := [], searchPath := search }
  options := { sourcePath := search }
  library := .empty
  renderer := { device := .start {} }

theorem start_picture (search : SearchPath) (files : FileTree) :
    Session.start (pictureSession search).settings (Traced.start {}) files =
      .ok (pictureSession search) := rfl

/-- A search path with one directory. -/
def librarySearch : SearchPath := ⟨[⟨"lib"⟩]⟩

/-- The document as such a session loads it. -/
def pictureLoaded : LoadedDocument := pictureDocument.merge .empty {} (some ⟨"genglsl", "glsl"⟩)

/-- The subset of the document. -/
def pictureSubset : MaterialSubset := ⟨⟨"A/r", .shaderRef⟩, none⟩

/-- The uniform of the image. -/
def pictureVariable : ShaderVariable where
  name := "r_f"
  type := .filename
  value? := some (.filename "w.tga")
  path := "A/r/f"

theorem imageName?_picture : ShaderBinding.imageName? none pictureVariable = some "w.tga" := by
  decide +kernel

/-- A new binding for the document: with one image, and without another sampler. -/
structure BindsPicture (b : ShaderBinding) : Prop where
  images : b.shader.imageUniforms = [pictureVariable]
  units : b.units = [("r_f", 0)]
  found : b.found = []

/-- The document has one image, and its shader no other sampler, wherever the image is. -/
theorem offers_picture {search : SearchPath} (hsearch : search = {} ∨ search = librarySearch)
    (place : Place) : ∃ shader,
      (∀ (r : Renderer (Traced Tally)) scene?,
        Offers { pictureSession search with renderer := r, scene? } (pictureFiles place) ⟨"a.mtlx"⟩
          pictureLoaded pictureSubset shader) ∧
      ∀ p, BindsPicture (.new shader p) := by
  have hsubsets : pictureLoaded.subsets = [pictureSubset] := by decide +kernel
  have hshader : ((ShaderGenerator.generate
      { lights := (LightRig.ofDocument pictureLoaded.document).kinds } pictureLoaded.document
      (pictureFiles place) "A/r"
      { sourcePath := search
        transparency := Transparency.isTransparent pictureLoaded.document "A/r" }).toOption.map
        fun shader => (shader.imageUniforms,
          ShaderBinding.numberSamplers (ShaderBinding.samplers shader))) =
      some ([pictureVariable], [("r_f", 0)]) := by
    rcases hsearch with rfl | rfl <;> cases place <;> decide +kernel
  obtain ⟨shader, hgenerate, hfeatures⟩ := Graph.Sample.exists_ok_of_map hshader
  obtain ⟨himages, hunits⟩ := Prod.mk.inj hfeatures
  exact ⟨shader, fun r scene? => ⟨⟨_, ofFile_picture place _, rfl⟩, hsubsets, hgenerate⟩,
    fun p => ⟨himages, hunits, rfl⟩⟩

/-- The document of which only a number is shown has no image. -/
theorem offers_sample (r : Renderer (Traced Tally)) (scene? : Option Scene) :
    ∃ shader, Offers { pictureSession {} with renderer := r, scene? } sampleFiles ⟨"a.mtlx"⟩
        (sampleDocument.merge .empty {} (some ⟨"genglsl", "glsl"⟩)) pictureSubset shader ∧
      shader.imageUniforms = [] := by
  have hsubsets : (sampleDocument.merge .empty {} (some ⟨"genglsl", "glsl"⟩)).subsets =
      [pictureSubset] := by decide +kernel
  let d : Document := (sampleDocument.merge .empty {} (some ⟨"genglsl", "glsl"⟩)).document
  have hshader : ((ShaderGenerator.generate { lights := (LightRig.ofDocument d).kinds } d
      sampleFiles "A/r" { transparency := Transparency.isTransparent d "A/r" }).toOption.map
        (·.imageUniforms)) = some [] := by
    decide +kernel
  obtain ⟨shader, hgenerate, himages⟩ := Graph.Sample.exists_ok_of_map hshader
  exact ⟨shader, ⟨⟨_, ofFile_sample _, rfl⟩, hsubsets, hgenerate⟩, himages⟩

/-- The session after a document with one subset was shown. -/
def showing (search : SearchPath) (r : Renderer (Traced Tally)) (loaded : LoadedDocument)
    (m : Material) : Session (Traced Tally) :=
  { pictureSession search with renderer := r, scene? := some (loneScene ⟨"a.mtlx"⟩ loaded m) }

/-- The path under which the image is kept. -/
def pictureKey : Path := ⟨"/w.tga"⟩

theorem key_picture (place : Place) :
    ImageCache.key (pictureFiles place) ⟨"w.tga"⟩ = pictureKey := by
  cases place <;> decide +kernel

theorem find_picture (place : Place) :
    (pictureSession {}).settings.searchPath.find (pictureFiles place) ⟨"w.tga"⟩ = ⟨"w.tga"⟩ := by
  cases place <;> decide +kernel

theorem picture?_pictureFiles :
    ((pictureFiles .beside).picture? pictureKey).isSome = true ∧
      (pictureFiles .nowhere).picture? pictureKey = none := by
  decide +kernel

section Picture

variable {b : ShaderBinding} {s : Session (Traced Tally)}

theorem BindsPicture.found_afterActivate (h : BindsPicture b) (place : Place)
    (hs : s.settings = (pictureSession {}).settings) (r : Renderer (Traced Tally)) :
    (s.afterActivate (pictureFiles place) none b r).1.found = [("w.tga", ⟨"w.tga"⟩)] := by
  show (b.lookUpImages (pictureFiles place) s.settings.searchPath none).found = _
  unfold ShaderBinding.lookUpImages
  rw [h.images, List.filterMap_cons, imageName?_picture]
  show (b.lookUp (pictureFiles place) s.settings.searchPath "w.tga").found = _
  unfold ShaderBinding.lookUp
  rw [h.found, hs, find_picture]
  rfl

/-- Nothing but the image is to be shown. -/
theorem BindsPicture.requests (h : BindsPicture b) {place : Place}
    (hs : s.settings = (pictureSession {}).settings) (r : Renderer (Traced Tally)) {uniform : String} {path? : Option Path}
    {fallback? : Option Color}
    (hasks : s.requests none (s.afterActivate (pictureFiles place) none b r).1 uniform path?
      fallback?) : path? = some ⟨"w.tga"⟩ := by
  obtain ⟨hfinds, -⟩ := s.afterActivate_draws (pictureFiles place) none b r
  have hfound := h.found_afterActivate place hs r
  cases hasks with
  | @image v' _ hv hpath =>
    rw [hfinds.alike.shader, h.images] at hv
    obtain rfl := List.mem_singleton.1 hv
    rw [imageName?_picture] at hpath
    cases hpath with
    | some hpath =>
      unfold ShaderBinding.found? at hpath
      rw [hfound] at hpath
      exact hpath.symm
  | radiance hunit | irradiance hunit =>
    rw [hfinds.alike.units, h.units] at hunit
    cases hunit

/-- The image is among what is supplied. -/
theorem BindsPicture.passes (h : BindsPicture b) (place : Place)
    (hs : s.settings = (pictureSession {}).settings) (r : Renderer (Traced Tally)) :
    let b' := (s.afterActivate (pictureFiles place) none b r).1
    ∃ r₁, Renderer.Draws (pictureFiles place) b (s.requests none b') r r₁ ∧
      Renderer.Draws (pictureFiles place) b (s.requests none b')
        (b'.bindTexture (pictureFiles place) "r_f" (some ⟨"w.tga"⟩) s.settings.fallback? r₁).2
        (s.afterActivate (pictureFiles place) none b r).2 ∧
      Ordered.get? "r_f" b'.units = some 0 := by
  intro b'
  obtain ⟨r₁, hbefore, hafter⟩ := s.afterActivate_passes (pictureFiles place) none b r
    (h.images ▸ List.mem_singleton_self pictureVariable)
  obtain ⟨hfinds, -⟩ := s.afterActivate_draws (pictureFiles place) none b r
  have hpath : b'.found? "w.tga" = some ⟨"w.tga"⟩ := by
    unfold ShaderBinding.found?
    rw [h.found_afterActivate place hs r]
    rfl
  rw [imageName?_picture, Option.bind_some, hpath] at hafter
  exact ⟨r₁, hbefore, hafter, by rw [hfinds.alike.units, h.units]; rfl⟩

/-- If the image is in the cache, it is put on its unit, and nothing is uploaded. -/
theorem BindsPicture.cached (h : BindsPicture b) (place : Place)
    (hs : s.settings = (pictureSession {}).settings) {r : Renderer (Traced Tally)} {d : ImageDescriptor}
    (hknown : Ordered.get? pictureKey r.images.entries = some (.ok d)) :
    let r' := (s.afterActivate (pictureFiles place) none b r).2
    Renderer.Issues (fun use => ∃ c, use = .performed c) r r' ∧
      .performed (.bindTexture d.texture 0 {}) ∈ r'.device.uses.drop r.device.uses.length := by
  intro r'
  have hall : ∀ uniform path? fallback?, s.requests none
      (s.afterActivate (pictureFiles place) none b r).1 uniform path? fallback? →
      ∃ path ∈ path?, ∃ d, Ordered.get? (ImageCache.key (pictureFiles place) path)
        r.images.entries = some (.ok d) := fun uniform path? fallback? hasks =>
    ⟨⟨"w.tga"⟩, h.requests hs r hasks, d, by rw [key_picture, hknown]⟩
  have hdraws := (s.afterActivate_draws (pictureFiles place) none b r).2
  refine ⟨(hdraws.cached hall).2, ?_⟩
  obtain ⟨r₁, hbefore, hafter, hunit⟩ := h.passes place hs r
  obtain ⟨himages, more, huses, -⟩ := hbefore.cached hall
  rw [Renderer.bindTexture_known hunit (himages ▸ key_picture place ▸ hknown)] at hafter
  refine (hafter.cached fun uniform path? fallback? hasks => ?_).2.mem_drop ?_ ?_
  · obtain ⟨path, hpath, hentry⟩ := hall _ _ _ hasks
    exact ⟨path, hpath, himages ▸ hentry⟩
  · show _ ≤ ((r₁.device.uses ++ [_]) ++ [_]).length
    rw [huses, List.append_assoc, List.append_assoc, List.length_append]
    exact Nat.le_add_right _ _
  · show _ ∈ ((r₁.device.uses ++ [_]) ++ [_]).drop _
    rw [huses, List.append_assoc, List.append_assoc, List.drop_left]
    exact List.mem_append_right _ List.mem_cons_self

end Picture

end MaterialViewer.Session
