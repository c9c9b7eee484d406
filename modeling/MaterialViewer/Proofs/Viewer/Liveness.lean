import MaterialViewer.Proofs.Rendering.Liveness
import MaterialViewer.Proofs.Viewer.Frames
import MaterialViewer.Proofs.Viewer.Single

/-!
# Proofs: what is live during a session

Whatever a session does, it does by scripts of the bindings that its materials hold, by asking for
programs, by dropping images and by releasing programs that no material of the new scene holds. So
if the programs of all materials are in the cache, every command is about what is live at that time,
and the cache goes on to hold these programs.
-/

namespace MaterialViewer.Session

open Instruction (runAll)

section Holds

variable {δ : Type} [Device δ] {s s' : Session (Traced δ)} {files : FileTree} {scene : Scene}
  {m : Material} {r : Renderer (Traced δ)} {i n : Nat}

/-- The programs that materials hold. -/
def held (materials : List Material) : List CompiledProgram := materials.filterMap (·.program?)

/-- The renderer is in order, and the programs of all materials are in its cache. -/
structure Holds (s : Session (Traced δ)) : Prop where
  renderer : s.renderer.Proper
  materials : ∀ scene, s.scene? = some scene →
    ∀ p ∈ held scene.materials, p ∈ s.renderer.programs.programs

/-! ### Scripts -/

/-- Activating a material is the run of a script for its program. -/
theorem afterActivate_eq_runAll (s : Session (Traced δ)) (files : FileTree) (tile? : Option String)
    (b : ShaderBinding) (r : Renderer (Traced δ)) :
    ∃ b' script, s.afterActivate files tile? b r = (b', runAll files script r) ∧ b.Alike b' ∧
      b.IsScript script := by
  have himages := b.bindImages_eq_runAll (runAll files b.useScript r) files s.settings.searchPath
    tile? s.settings.fallback?
  have halike := b.lookUpImages_alike files s.settings.searchPath tile?
  dsimp only at himages
  generalize b.lookUpImages files s.settings.searchPath tile? = b' at himages halike
  refine ⟨b', b.useScript ++ b'.imagesScript tile? s.settings.fallback? ++ b'.meshScript s.mesh,
    ?_, halike, ?_⟩
  · unfold afterActivate
    simp only [b.use_eq_runAll r files, himages, ShaderBinding.bindMesh_eq_runAll _ _ files,
      Instruction.runAll_append]
  · exact (ShaderBinding.isScript_use.append
      ((ShaderBinding.isScript_images _ _).alike halike)).append
        ((ShaderBinding.isScript_mesh _).alike halike)

/-- Drawing a material is the run of a script for its program. -/
theorem afterDraw_eq_runAll (s : Session (Traced δ)) (files : FileTree) (lights : LightRig)
    (tile? : Option String) (b : ShaderBinding) (r : Renderer (Traced δ)) :
    ∃ b' script, s.afterDraw files lights tile? b r = (b', runAll files script r) ∧ b.Alike b' ∧
      b.IsScript script := by
  have hview := b.bindView_eq_runAll (runAll files b.useScript r) files s.settings.camera.world
    s.settings.camera.view s.settings.camera.projection
  have himages := b.bindImages_eq_runAll (runAll files (b.viewScript s.settings.camera.world
    s.settings.camera.view s.settings.camera.projection) (runAll files b.useScript r)) files
    s.settings.searchPath tile? s.settings.fallback?
  have halike := b.lookUpImages_alike files s.settings.searchPath tile?
  dsimp only at himages
  generalize b.lookUpImages files s.settings.searchPath tile? = b₁ at himages halike
  have hdrawn : ∀ (b : ShaderBinding) (r : Renderer (Traced δ)),
      s.mesh.partitions.foldl (fun r p => b.drawPartition p r) r =
        runAll files (s.mesh.partitions.flatMap b.partitionScript) r :=
    fun b => Instruction.foldl_eq_runAll (fun p r => b.drawPartition_eq_runAll r files p) _
  obtain ⟨halike', hlights⟩ := ShaderBinding.isScript_lights (b := b₁) files s.settings.searchPath
    lights s.settings.environment
  refine ⟨_, b.useScript ++ b.viewScript s.settings.camera.world s.settings.camera.view
    s.settings.camera.projection ++ b₁.imagesScript tile? s.settings.fallback? ++
    (b₁.lightsScript files s.settings.searchPath lights s.settings.environment).2 ++
    s.mesh.partitions.flatMap (b₁.lightsScript files s.settings.searchPath lights
      s.settings.environment).1.partitionScript, ?_, halike.trans halike', ?_⟩
  · unfold afterDraw
    simp only [b.use_eq_runAll r files, hview, himages, ShaderBinding.bindLights_eq_runAll,
      hdrawn, Instruction.runAll_append]
  · exact (((ShaderBinding.isScript_use.append (ShaderBinding.isScript_view _ _ _)).append
      ((ShaderBinding.isScript_images _ _).alike halike)).append (hlights.alike halike)).append
        ((ShaderBinding.isScript_flatMap fun p _ => ShaderBinding.isScript_partition p).alike
          (halike.trans halike'))

/-- Whatever shows a material is the run of a script for its program. -/
theorem Exhibits.runs (h : s.Exhibits files scene i m r s') :
    ∃ b b' script, m.binding? = some b ∧ b.Alike b' ∧ b.IsScript script ∧ s' = { s with
      renderer := runAll files script r
      scene? := some { scene.put i (m.withBound b') with selection := i } } := by
  obtain ⟨b, after, hb, hafter | hafter, rfl⟩ := h
  · obtain ⟨b', script, heq, halike, hscript⟩ := s.afterActivate_eq_runAll files m.tile? b r
    rw [hafter, heq]
    exact ⟨b, b', script, hb, halike, hscript, rfl⟩
  · obtain ⟨b', script, heq, halike, hscript⟩ :=
      s.afterDraw_eq_runAll files scene.lights m.tile? b r
    rw [hafter, heq]
    exact ⟨b, b', script, hb, halike, hscript, rfl⟩

omit [Device δ] in
/-- What is held is told from the programs of the materials. -/
theorem held_set {m' : Material} (h : m'.program? = m.program?) {materials : List Material} :
    held (materials.set i m') = held (materials.set i m) := by
  have hmap : ∀ materials : List Material, held materials =
      (materials.map (·.program?)).filterMap id := fun materials => by
    rw [List.filterMap_map]
    rfl
  rw [hmap, hmap, List.map_set, List.map_set, h]

/-- If the programs of the materials are in the cache, one of them can be shown. Then they still
are, and the cache is as it was. -/
theorem Exhibits.holds (h : s.Exhibits files scene i m r s') (hr : r.Proper)
    (hi : i < scene.materials.length)
    (hheld : ∀ p ∈ held (scene.materials.set i m), p ∈ r.programs.programs) :
    s'.Holds ∧ s'.renderer.programs = r.programs ∧
      ∃ scene', s'.scene? = some scene' ∧
        held scene'.materials = held (scene.materials.set i m) := by
  obtain ⟨b, b', script, hb, halike, hscript, rfl⟩ := h.runs
  have hm : m.program? = some b.program := Material.program?_of_binding? hb
  have hsame : held (scene.materials.set i (m.withBound b')) = held (scene.materials.set i m) :=
    held_set (hm ▸ congrArg some halike.program)
  have hmem : m ∈ scene.materials.set i m :=
    List.mem_of_getElem? (List.getElem?_set_self hi)
  have hprogram : b.program ∈ r.programs.programs :=
    hheld _ (List.mem_filterMap.2 ⟨m, hmem, hm⟩)
  obtain ⟨hproper, hprograms⟩ :
      (runAll files script r).Proper ∧ (runAll files script r).programs = r.programs :=
    hr.runAll (List.mem_map_of_mem (f := (·.id)) hprogram) hscript
  refine ⟨⟨hproper, ?_⟩, hprograms, _, rfl, hsame⟩
  rintro _ ⟨⟩ p hp
  show p ∈ (runAll files script r).programs.programs
  rw [hprograms]
  exact hheld p (hsame ▸ hp)

/-! ### Operations -/

theorem Compiles.proper {r' : Renderer (Traced δ)} (h : Compiles r r') (hr : r.Proper) :
    r'.Proper ∧ ∀ p ∈ r.programs.programs, p ∈ r'.programs.programs := by
  rcases h with rfl | ⟨name, source, rfl⟩
  · exact ⟨hr, fun _ hp => hp⟩
  · exact ⟨(hr.program name source).1, (hr.program name source).2.1⟩

theorem generate_program {g : ShaderGenerator} {d : Document} {options : GeneratorOptions}
    {m' : Material} {r' : Renderer (Traced δ)} (hr : r.Proper)
    (h : m.generate g d files options r = (.ok m', r')) {p : CompiledProgram}
    (hp : m'.program? = some p) : p ∈ r'.programs.programs := by
  obtain ⟨shader, program, rfl, -, hprogram⟩ := Material.generate_ok h
  obtain rfl : program = p := Option.some.inj hp
  have hmem := (hr.program shader.name ⟨shader.vertexSource, shader.pixelSource⟩).2.2
  rw [hprogram] at hmem
  exact hmem program rfl

theorem Prepared.held (h : s.Prepared files scene m r) (hs : s.renderer.Proper) :
    r.Proper ∧ scene.materials.set scene.selection m = scene.materials ∧
      ∀ p ∈ held scene.materials, p ∈ r.programs.programs := by
  obtain ⟨blank, hblank, hgenerate⟩ := h.generated
  refine ⟨(h.compiles.proper hs).1, by rw [h.materials, List.set_set], fun p hp => ?_⟩
  obtain ⟨m', hm', hp⟩ := List.mem_filterMap.1 hp
  rw [h.materials] at hm'
  rcases List.mem_or_eq_of_mem_set hm' with hm' | rfl
  · obtain ⟨subset, -, rfl⟩ := List.mem_map.1 hm'
    cases hp
  · exact generate_program hs hgenerate hp

theorem Readied.held (h : s.Readied files scene i m r) (hs : s.Holds)
    (hscene : s.scene? = some scene) :
    r.Proper ∧ ∀ p ∈ held (scene.materials.set i m), p ∈ r.programs.programs := by
  obtain ⟨hproper, hkeep⟩ := h.compiles.proper hs.renderer
  refine ⟨hproper, fun p hp => ?_⟩
  obtain ⟨m', hm', hprogram⟩ := List.mem_filterMap.1 hp
  have hold : ∀ m' ∈ scene.materials, m'.program? = some p → p ∈ r.programs.programs :=
    fun m' hm' hp => hkeep p (hs.materials scene hscene p (List.mem_filterMap.2 ⟨m', hm', hp⟩))
  rcases List.mem_or_eq_of_mem_set hm' with hm' | rfl
  · exact hold m' hm' hprogram
  · obtain ⟨old, hmem, ⟨rfl, -, -⟩ | hgenerate⟩ := h
    · exact hold m' (List.mem_of_getElem? hmem) hprogram
    · exact generate_program hs.renderer hgenerate hprogram

theorem proper_foldl_invalidate (paths : List Path) (hr : r.Proper) :
    (paths.foldl (·.invalidate files ·) r).Proper ∧
      (paths.foldl (·.invalidate files ·) r).programs = r.programs := by
  induction paths generalizing r with
  | nil => exact ⟨hr, rfl⟩
  | cons path rest ih =>
    obtain ⟨hproper, hprograms⟩ := ih (hr.invalidate files path)
    exact ⟨hproper, hprograms⟩

omit [Device δ] in
theorem programs_eq_held (scene : Scene) : scene.programs = (held scene.materials).map (·.id) :=
  (List.map_filterMap ..).symm

/-- Releasing the programs that no material of the shown scene holds. -/
theorem Holds.purge (hs : s.Holds) (hscene : s.scene? = some scene) :
    ({ s with renderer := s.renderer.purgePrograms scene.programs } : Session (Traced δ)).Holds ∧
      ∀ p, p ∈ (s.renderer.purgePrograms scene.programs).owned ↔ p ∈ scene.programs := by
  have hheld := hs.materials scene hscene
  obtain ⟨hproper, howned⟩ := hs.renderer.purgePrograms hheld
  rw [programs_eq_held]
  refine ⟨⟨hproper, fun scene' hscene' p hp => ?_⟩, howned⟩
  obtain rfl := Option.some.inj (hscene.symm.trans hscene')
  refine ProgramCache.mem_filter.2 ⟨hheld p hp, ?_⟩
  exact List.contains_iff_mem.2 (List.mem_map_of_mem hp)

/-- When a scene is shown in place of another one, and the programs that it does not hold are
released, the programs in the cache are those of the scene. -/
theorem Prepared.reloads (h : s.Prepared files scene m r) (hs : s.Holds) (paths : List Path)
    (hexhibits :
      s.Exhibits files scene scene.selection m (paths.foldl (·.invalidate files ·) r) s') :
    ({ s' with renderer := s'.renderer.purgePrograms scene.programs } : Session (Traced δ)).Holds ∧
      ∃ scene', s'.scene? = some scene' ∧
        ∀ p, p ∈ (s'.renderer.purgePrograms scene.programs).owned ↔ p ∈ scene'.programs := by
  obtain ⟨hproper, hset, hheld⟩ := h.held hs.renderer
  obtain ⟨hdropped, hprograms⟩ : (paths.foldl (·.invalidate files ·) r).Proper ∧
      (paths.foldl (·.invalidate files ·) r).programs = r.programs :=
    proper_foldl_invalidate paths hproper
  obtain ⟨hs', -, scene', hscene', hsame⟩ := hexhibits.holds hdropped
    (List.getElem?_eq_some_iff.1 h.selected).1 (by rwa [hset, hprograms])
  rw [programs_eq_held scene, ← hset, ← hsame, ← programs_eq_held]
  exact ⟨(hs'.purge hscene').1, scene', hscene', (hs'.purge hscene').2⟩

/-- After reading again successfully, the programs in the cache are those of the scene. -/
theorem Holds.reload (hs : s.Holds) (h : s.reload files = (.ok (), s')) :
    s'.Holds ∧ ∃ scene, s'.scene? = some scene ∧
      ∀ p, p ∈ s'.renderer.owned ↔ p ∈ scene.programs := by
  rcases s.reload_turns files with
    ⟨e, r, hreload, -⟩ | ⟨old, scene, m, r, s₁, hold, hprepared, hexhibits, hreload⟩
  · cases (Prod.mk.inj (h.symm.trans hreload)).1
  · obtain ⟨-, rfl⟩ := Prod.mk.inj (h.symm.trans hreload)
    exact hprepared.reloads hs _ hexhibits

/-- Whatever an operation does, the programs of all materials stay in the cache. -/
theorem Turns.holds (h : Turns files s n s') (hs : s.Holds) : s'.Holds := by
  cases h with
  | asked hcompiles =>
    obtain ⟨hproper, hkeep⟩ := hcompiles.proper hs.renderer
    exact ⟨hproper, fun scene hscene p hp => hkeep p (hs.materials scene hscene p hp)⟩
  | loaded hprepared hexhibits =>
    obtain ⟨hproper, hset, hheld⟩ := hprepared.held hs.renderer
    exact (hexhibits.holds hproper (List.getElem?_eq_some_iff.1 hprepared.selected).1
      (by rwa [hset])).1
  | reloaded _ hprepared hexhibits => exact (hprepared.reloads hs _ hexhibits).1
  | @shown scene i m r s' hscene hreadied _ hexhibits =>
    obtain ⟨hproper, hheld⟩ := hreadied.held hs hscene
    obtain ⟨old, hmem, -⟩ := hreadied
    exact (hexhibits.holds hproper (List.getElem?_eq_some_iff.1 hmem).1 hheld).1
  | dropped path => exact ⟨hs.renderer.invalidate files path, hs.materials⟩

/-- Whatever is kept by all uses of a device is kept by an operation. -/
theorem Holds.perform (hs : s.Holds) (files : FileTree) (op : Operation) :
    (s.perform files op).2.Holds := (s.perform_turns files op).holds hs

end Holds

/-! ### Runs -/

/-- The session after some operations, each with the files as they are then. -/
def after {δ : Type} [Device δ] (s : Session δ) (steps : List (FileTree × Operation)) : Session δ :=
  steps.foldl (fun s step => (s.perform step.1 step.2).2) s

section Headless

variable {settings : Settings} {files : FileTree} {s s₀ : Session (Traced Headless)}

theorem holds_after (hs : s.Holds) (hm : Headless.Mirrors s.renderer.device)
    (steps : List (FileTree × Operation)) :
    (s.after steps).Holds ∧ Headless.Mirrors (s.after steps).renderer.device := by
  induction steps generalizing s with
  | nil => exact ⟨hs, hm⟩
  | cons step rest ih =>
    exact ih (hs.perform step.1 step.2)
      ((s.perform_moves step.1 step.2).kept Headless.kept_mirrors hm)

theorem holds_start (h : Session.start settings (.start ({} : Headless)) files = .ok s) :
    s.Holds ∧ Headless.Mirrors s.renderer.device := by
  obtain ⟨-, hrenderer, hscene⟩ := start_eq h
  refine ⟨⟨?_, ?_⟩, ?_⟩
  · rw [hrenderer]
    exact Renderer.proper_start _
  · rw [hscene]
    exact nofun
  · rw [hrenderer]
    exact Headless.mirrors_start

/-- Whatever a session over a headless device does from its start, with any files at any time: every
command is about programs and textures that came about before and were not given up. The live
programs of the device are those of the program cache, and its live textures those of the image
cache. And when the document was read again successfully, the live programs are those that the
materials of the shown scene hold. -/
theorem after_live (hstart : Session.start settings (.start ({} : Headless)) files = .ok s₀)
    (steps : List (FileTree × Operation)) :
    let s := s₀.after steps
    let d := s.renderer.device
    (∀ before c later, d.uses = before ++ .performed c :: later →
      (∀ p, c.program? = some p →
        p ∈ before.filterMap Use.newProgram? ∧ p ∉ before.filterMap Use.lostProgram?) ∧
      ∀ t, c.texture? = some t →
        t ∈ before.filterMap Use.newTexture? ∧ t ∉ before.filterMap Use.lostTexture?) ∧
    (d.device.programs.map Prod.fst).Perm (s.renderer.programs.programs.map (·.id)) ∧
    (d.device.textures.map Prod.fst).Perm s.renderer.images.textures ∧
    ∀ files s', s.reload files = (.ok (), s') → ∃ scene, s'.scene? = some scene ∧
      ∀ p, p ∈ s'.renderer.device.device.programs.map Prod.fst ↔ p ∈ scene.programs := by
  intro s d
  obtain ⟨hs₀, hm₀⟩ := holds_start hstart
  obtain ⟨hs, hm⟩ := holds_after hs₀ hm₀ steps
  refine ⟨fun before c later heq => ?_, ?_, ?_, fun files s' hreload => ?_⟩
  · have huses : Use.Proper d.uses := hs.renderer.uses
    obtain ⟨hprogram, htexture⟩ := huses _ _ _ heq
    have hbefore : Use.Proper before := (heq ▸ huses).of_append
    have hsub : before.Sublist d.uses := heq ▸ List.sublist_append_left _ _
    obtain ⟨hlive, hlive'⟩ := hbefore.mem_live (hm.newPrograms.nodup.sublist (hsub.filterMap _))
      (hm.newTextures.nodup.sublist (hsub.filterMap _))
    exact ⟨fun p hp => (hlive p).1 (hprogram c p rfl hp),
      fun t ht => (hlive' t).1 (htexture c t rfl ht)⟩
  · exact hm.programs ▸ hs.renderer.perm_programs
  · exact hm.textures ▸ hs.renderer.perm_textures
  · have hm' : Headless.Mirrors s'.renderer.device := by
      have hkept := (s.perform_moves files .reload).kept Headless.kept_mirrors hm
      change Headless.Mirrors (s.reload files).2.renderer.device at hkept
      rwa [hreload] at hkept
    obtain ⟨hs', scene, hscene, howned⟩ := hs.reload hreload
    refine ⟨scene, hscene, fun p => ?_⟩
    rw [hm'.programs, hs'.renderer.perm_programs.mem_iff]
    exact howned p

/-! ### A document that changes -/

/-- A session over a headless device that was started without libraries. -/
def tracedSession : Session (Traced Headless) where
  settings := { libraryFolders := [] }
  options := {}
  library := .empty
  renderer := { device := .start {} }

/-- A generated shader compiles. -/
theorem program_of_generate {g : ShaderGenerator} {d : Document} {path : String}
    {options : GeneratorOptions} {shader : GeneratedShader}
    (h : g.generate d files path options = .ok shader) (r : Renderer (Traced Headless)) :
    ∃ p r', r.program shader.name ⟨shader.vertexSource, shader.pixelSource⟩ = (.ok p, r') :=
  r.exists_program shader.name _ (isOk_compile_generate h r.device.device shader.name)

/-- Drawing a document with one subset. -/
theorem draw_lone {path : Path} {loaded : LoadedDocument} {m : Material} {b : ShaderBinding}
    (hscene : s.scene? = some (loneScene path loaded m)) (hb : m.binding? = some b)
    (files : FileTree) : ∃ r m', (s.draw files).2 =
      { s with renderer := r, scene? := some (loneScene path loaded m') } := by
  rw [draw_eq hscene rfl hb files]
  exact ⟨_, _, rfl⟩

/-- A document with an image was loaded and drawn, and became another document. After it is read
again, the live programs are those of the scene. -/
theorem after_live_changed : ∃ s' : Session (Traced Headless),
    Session.start tracedSession.settings (.start {}) sampleFiles = .ok tracedSession ∧
    (tracedSession.after [(pictureFiles .beside, .load ⟨"a.mtlx"⟩),
      (pictureFiles .beside, .draw)]).reload sampleFiles = (.ok (), s') ∧
    ∃ scene, s'.scene? = some scene ∧
      ∀ p, p ∈ s'.renderer.device.device.programs.map Prod.fst ↔ p ∈ scene.programs := by
  have hstart : Session.start tracedSession.settings (.start {}) sampleFiles =
    .ok tracedSession := rfl
  have hreload : ∃ s', (tracedSession.after [(pictureFiles .beside, .load ⟨"a.mtlx"⟩),
      (pictureFiles .beside, .draw)]).reload sampleFiles = (.ok (), s') := by
    obtain ⟨shader, hoffers, -⟩ := offers_picture (.inl rfl) .beside
    obtain ⟨shader', hoffers', -⟩ := offers_sample { device := .start {} } none
    obtain ⟨p, r, hprogram⟩ :=
      program_of_generate (hoffers { device := .start {} } none).shader tracedSession.renderer
    have hpicture : tracedSession.Offers (pictureFiles .beside) ⟨"a.mtlx"⟩ pictureLoaded
        pictureSubset shader :=
      have h := hoffers { device := .start {} } none
      ⟨h.read, h.subsets, h.shader⟩
    obtain ⟨r₂, m₂, hdrawn⟩ : ∃ r₂ m₂, tracedSession.after
        [(pictureFiles .beside, .load ⟨"a.mtlx"⟩), (pictureFiles .beside, .draw)] =
          { tracedSession with
            renderer := r₂, scene? := some (loneScene ⟨"a.mtlx"⟩ pictureLoaded m₂) } := by
      have hafter : ∀ (s : Session (Traced Headless)) (files : FileTree) (path : Path),
          s.after [(files, .load path), (files, .draw)] = ((s.load files path).2.draw files).2 :=
        fun _ _ _ => rfl
      rw [hafter, load_lone hpicture hprogram]
      exact draw_lone rfl rfl _
    obtain ⟨p', r', hprogram'⟩ := program_of_generate hoffers'.shader r₂
    have hsample : ({ tracedSession with
        renderer := r₂, scene? := some (loneScene ⟨"a.mtlx"⟩ pictureLoaded m₂) } :
          Session (Traced Headless)).Offers sampleFiles ⟨"a.mtlx"⟩
        (sampleDocument.merge .empty {} (some ⟨"genglsl", "glsl"⟩)) pictureSubset shader' :=
      ⟨hoffers'.read, hoffers'.subsets, hoffers'.shader⟩
    obtain ⟨released, hreload⟩ := reload_lone rfl hsample hprogram'
    rw [hdrawn]
    exact ⟨_, hreload⟩
  obtain ⟨s', hreload⟩ := hreload
  exact ⟨s', hstart, hreload, (after_live hstart _).2.2.2 sampleFiles s' hreload⟩

end Headless

end MaterialViewer.Session
