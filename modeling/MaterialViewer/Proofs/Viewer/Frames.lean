import MaterialViewer.Proofs.Rendering.Units
import MaterialViewer.Proofs.Viewer.Moves

/-!
# Proofs: frames

Whatever an operation puts on a unit supplies a sampler of the material that is shown then with what
it is asked to show. When a frame is drawn, each image of the shader has a unit of its own, so what the
frame shows for it is read off the trace of the device: the picture of its file, if nothing in the
cache is stale, or else the fallback color.
-/

namespace MaterialViewer.Session

open Renderer (Draws Issues Current)

variable {δ : Type} [Device δ] {s s' : Session (Traced δ)} {files : FileTree} {start : Nat}
  {old : OldEntries} {scene : Scene} {m : Material} {i : Nat} {r : Renderer (Traced δ)} {n : Nat}

/-- If the use puts a texture on a unit, it supplies a sampler of the selected material with what it
is asked to show. -/
def IsSupplied (s : Session (Traced δ)) (files : FileTree) (start : Nat) (old : OldEntries)
    (use : Use) : Prop :=
  ∀ t unit sampling, use = .performed (.bindTexture t unit sampling) →
    ∃ m b uniform path? fallback?, s.selected? = some m ∧ m.binding? = some b ∧
      Ordered.get? uniform b.units = some unit ∧ s.requests m.tile? b uniform path? fallback? ∧
      Supplied files start old s.renderer.device.uses path? fallback? (some t)

/-- All textures that are put on units from the first session to the second are what the samplers of
the material that is shown then are asked to show. -/
def Supplies (files : FileTree) (start : Nat) (old : OldEntries) (s s' : Session (Traced δ)) : Prop :=
  Issues (s'.IsSupplied files start old) s.renderer s'.renderer

/-! ## One operation -/

/-- The use puts no texture on a unit. -/
def PutsNothing (use : Use) : Prop :=
  ∀ t unit sampling, use ≠ .performed (.bindTexture t unit sampling)

omit [Device δ] in
theorem PutsNothing.isSupplied {use : Use} (h : PutsNothing use) (s : Session (Traced δ)) :
    s.IsSupplied files start old use :=
  fun t unit sampling huse => (h t unit sampling huse).elim

theorem Compiles.current {r' : Renderer (Traced δ)} (h : Compiles r r')
    (hr : r.Current files start old) : r'.Current files start old := by
  rcases h with rfl | ⟨name, source, rfl⟩
  · exact hr
  · exact hr.program name source

theorem Compiles.issues {r' : Renderer (Traced δ)} (h : Compiles r r') :
    Issues (fun use => ∃ name source answer, use = .compiled name source answer) r r' := by
  rcases h with rfl | ⟨name, source, rfl⟩
  · exact .refl _
  · rcases r.program_device name source with hdevice | hdevice
    · exact ⟨[], by rw [hdevice, List.append_nil], nofun⟩
    · exact ⟨_, by rw [hdevice]; rfl, fun use huse => ⟨_, _, _, List.mem_singleton.1 huse⟩⟩

theorem putsNothing_compiled {use : Use}
    (h : ∃ name source answer, use = .compiled name source answer) : PutsNothing use := by
  obtain ⟨name, source, answer, rfl⟩ := h
  exact nofun

/-- Showing a material supplies its samplers. -/
theorem Presents.supplies (h : s.Presents files scene i m r s')
    (hi : i < scene.materials.length) (hr : r.Current files start old) :
    s'.renderer.Current files start old ∧
      Issues (s'.IsSupplied files start old) r s'.renderer := by
  obtain ⟨b, b', r', -, hfinds, hdraws, rfl⟩ := h
  obtain ⟨hcurrent, hissues⟩ := hr.draws hdraws
  refine ⟨hcurrent, hissues.mono ?_⟩
  rintro use huse t unit sampling rfl
  obtain ⟨uniform, path?, fallback?, hunit, hasks, hsupplied⟩ := huse.texture t unit sampling rfl
  exact ⟨m.withBound b', b', uniform, path?, fallback?, List.getElem?_set_self hi, rfl,
    hfinds.alike.units ▸ hunit, hasks, hsupplied⟩

theorem Prepared.lt_length (h : s.Prepared files scene m r) :
    scene.selection < scene.materials.length :=
  (List.getElem?_eq_some_iff.1 h.selected).1

theorem putsNothing_release {use : Use} (h : ∃ t, use = .performed (.releaseTexture t)) :
    PutsNothing use := by
  obtain ⟨t, rfl⟩ := h
  exact nofun

theorem putsNothing_purge {use : Use} (h : ∃ p, use = .performed (.releaseProgram p)) :
    PutsNothing use := by
  obtain ⟨p, rfl⟩ := h
  exact nofun

/-- Releasing programs in the end leaves what was supplied. -/
theorem Supplies.purge (h : s.Supplies files start old s')
    (hs' : s'.renderer.Current files start old) (held : List ProgramId) :
    s.Supplies files start old { s' with renderer := s'.renderer.purgePrograms held } := by
  have hissues := s'.renderer.issues_purge held
  refine Issues.trans (h.mono ?_) (hissues.mono fun use huse => (putsNothing_purge huse).isSupplied _)
  rintro use huse t unit sampling rfl
  obtain ⟨m, b, uniform, path?, fallback?, hm, hb, hunit, hasks, hsupplied⟩ :=
    huse t unit sampling rfl
  exact ⟨m, b, uniform, path?, fallback?, hm, hb, hunit, hasks,
    hsupplied.mono (fun _ => hissues.mem) fun _ => hissues.mem_drop hs'.started⟩

/-- While the files stay as they are, an operation supplies the samplers of the material that is
shown then. -/
theorem Moves.supplies (h : Moves files s n s') (hs : s.renderer.Current files start old) :
    s'.renderer.Current files start old ∧ s.Supplies files start old s' := by
  have hquiet : ∀ {s₁ : Session (Traced δ)} {r r₁ : Renderer (Traced δ)}, Issues PutsNothing r r₁ →
      Issues (s₁.IsSupplied files start old) r r₁ :=
    fun hissues => hissues.mono fun use huse => huse.isSupplied _
  cases h with
  | asked hcompiles => exact ⟨hcompiles.current hs, hquiet (hcompiles.issues.mono fun _ => putsNothing_compiled)⟩
  | loaded hprepared hpresents =>
    have hcompiles := hprepared.compiles
    obtain ⟨hcurrent, hissues⟩ := hpresents.supplies hprepared.lt_length (hcompiles.current hs)
    exact ⟨hcurrent, (hquiet (hcompiles.issues.mono fun _ => putsNothing_compiled)).trans hissues⟩
  | @reloaded old scene m r s' hold hprepared hpresents =>
    have hcompiles := hprepared.compiles
    have hdropped := r.issues_foldl_invalidate (old.materials.flatMap Material.imageFiles) files
    obtain ⟨hcurrent, hissues⟩ := hpresents.supplies hprepared.lt_length
      ((hcompiles.current hs).foldl_invalidate _)
    have hsupplies : s.Supplies files start _ s' :=
      ((hquiet (hcompiles.issues.mono fun _ => putsNothing_compiled)).trans
        (hquiet (hdropped.mono fun _ => putsNothing_release))).trans hissues
    exact ⟨hcurrent.purge _, hsupplies.purge hcurrent _⟩
  | @shown scene i m r s' hscene hreadied _ hpresents =>
    obtain ⟨old, hmem, -⟩ := id hreadied
    have hcompiles := hreadied.compiles
    obtain ⟨hcurrent, hissues⟩ := hpresents.supplies (List.getElem?_eq_some_iff.1 hmem).1
      (hcompiles.current hs)
    exact ⟨hcurrent, (hquiet (hcompiles.issues.mono fun _ => putsNothing_compiled)).trans hissues⟩
  | dropped path =>
    exact ⟨hs.invalidate path,
      hquiet ((s.renderer.issues_invalidate files path).mono fun _ => putsNothing_release)⟩

/-! ## Several operations -/

/-- Operations one after the other, while the files stay as they are. -/
def performAll (s : Session δ) (files : FileTree) (ops : List Operation) : Session δ :=
  ops.foldl (fun s op => (s.perform files op).2) s

/-- What every operation keeps is kept. -/
theorem performAll_keeps {P : Session δ → Prop}
    (hP : ∀ s op, P s → P (s.perform files op).2) {s : Session δ} (hs : P s)
    (ops : List Operation) : P (s.performAll files ops) := by
  induction ops generalizing s with
  | nil => exact hs
  | cons op rest ih => exact ih (hP s op hs)

/-- Operations keep to the files as they are while these stay. -/
theorem current_performAll (hs : s.renderer.Current files start old) (ops : List Operation) :
    (s.performAll files ops).renderer.Current files start old :=
  performAll_keeps (P := fun s => s.renderer.Current files start old)
    (fun s op hs => ((s.perform_moves files op).supplies hs).1) hs ops

/-! ## What a frame shows -/

/-- The frame that is drawn next shows the image for the uniform: the uniform is told a unit, a texture
is put on this unit, and the image was uploaded as this texture. -/
def FrameShows (s : Session (Traced δ)) (files : FileTree) (uniform : String) (image : Image) :
    Prop :=
  let uses := (s.draw files).2.renderer.device.uses
  let frame := uses.drop s.renderer.device.uses.length
  ∃ m b unit t sampling, s.selected? = some m ∧ m.binding? = some b ∧
    .performed (.setUniform b.program.id uniform (.sampler unit)) ∈ frame ∧
    .performed (.bindTexture t unit sampling) ∈ frame ∧ .uploaded image t ∈ uses

/-- What drawing comes to if the selected material has a shader. -/
theorem draw_eq {s : Session δ} {b : ShaderBinding} (hscene : s.scene? = some scene)
    (hselected : scene.selected? = some m) (hb : m.binding? = some b) (files : FileTree) :
    let after := s.afterDraw files scene.lights m.tile? b s.renderer
    s.draw files = (.ok (), { s with
      renderer := after.2
      scene? := some (scene.put scene.selection (m.withBound after.1)) }) := by
  unfold draw
  rw [hscene]
  dsimp only
  rw [hselected]
  dsimp only
  rw [s.drawMaterial_eq files scene hb]

section FrameShows

variable {b : ShaderBinding} {v : ShaderVariable}

omit [Device δ] in
/-- The sampler of an image is asked to show the picture of its file, or else the fallback color. -/
theorem eq_of_requests {b₁ : ShaderBinding} {search : SearchPath} {tile? : Option String}
    (hregular : b.Regular) (hfinds : (b.lookUpImages files search tile?).Finds files search b₁)
    (hv : v ∈ b.shader.imageUniforms)
    (hplain : v.name ∉ [Uniforms.envRadiance, Uniforms.envIrradiance]) {uniform : String}
    {path? : Option Path} {fallback? : Option Color} (hname : uniform = v.name)
    (hasks : s.requests tile? b₁ uniform path? fallback?) :
    path? = b.imagePath? files search tile? v ∧ fallback? = s.settings.fallback? := by
  have hlooked := (b.lookUpImages_finds files search tile?).trans hfinds
  cases hasks with
  | @image w _ hw hpath =>
    rw [hlooked.alike.shader] at hw
    obtain rfl := hregular.eq_of_name hw hv hname
    have hleads := (b.leads_lookUpImages files search tile? hv).finds hfinds
    rw [b.found?_lookUpImages files search tile? hv] at hleads
    exact ⟨hpath.unique hleads, rfl⟩
  | radiance => exact absurd (hname ▸ List.mem_cons_self) hplain
  | irradiance => exact absurd (hname ▸ List.mem_cons_of_mem _ List.mem_cons_self) hplain

/-- If nothing in the cache is stale, and no texture came about twice, the next frame shows for an
image the picture of its file, or else the fallback color. -/
theorem frameShows_iff (hm : s.selected? = some m) (hb : m.binding? = some b)
    (hregular : b.Regular) (hs : s.renderer.Faithful files []) (hv : v ∈ b.shader.imageUniforms)
    (hplain : v.name ∉ [Uniforms.envRadiance, Uniforms.envIrradiance])
    (hfresh : (s.draw files).2.renderer.device.newTextures.Nodup) (image : Image) :
    s.FrameShows files v.name image ↔
      files.shown? (b.imagePath? files s.settings.searchPath m.tile? v) s.settings.fallback? =
        some image := by
  obtain ⟨scene, hscene, hselected⟩ := Option.bind_eq_some_iff.1 hm
  obtain ⟨unit, hown⟩ := hregular.exists_ownsUnit hv hplain
  obtain ⟨hfinds, r₁, hbefore, hafter⟩ := s.afterDraw_passes files scene.lights m.tile? b s.renderer hv
  obtain ⟨-, hdraws⟩ := s.afterDraw_draws files scene.lights m.tile? b s.renderer
  have hdraw : (s.draw files).2.renderer = (s.afterDraw files scene.lights m.tile? b s.renderer).2 := by
    rw [draw_eq hscene hselected hb]
  unfold FrameShows
  rw [hdraw] at hfresh ⊢
  generalize s.afterDraw files scene.lights m.tile? b s.renderer = after
    at hfinds hafter hdraws hfresh ⊢
  obtain ⟨b₁, r₂⟩ := after
  dsimp only at hfinds hafter hdraws hfresh ⊢
  obtain ⟨hcurrent, hissues⟩ := hs.current.draws hdraws
  have htold : ∀ key entry, key ∈ [] ∨ Told files s.renderer.device.uses key entry →
      Told files r₂.device.uses key entry := fun key entry hentry =>
    (hentry.resolve_left List.not_mem_nil).mono fun _ => hissues.mem
  constructor
  · rintro ⟨m', b', unit', t, sampling, hm', hb', hunit, htexture, hupload⟩
    obtain rfl := Option.some.inj (hm.symm.trans hm')
    obtain rfl := Option.some.inj (hb.symm.trans hb')
    obtain ⟨-, hunit⟩ := (hissues.of_mem_drop hunit).sampler _ _ _ rfl
    obtain rfl := Option.some.inj (hown.has.symm.trans hunit)
    obtain ⟨uniform, path?, fallback?, hasked, hasks, hsupplied⟩ :=
      (hissues.of_mem_drop htexture).texture _ _ _ rfl
    obtain ⟨rfl, rfl⟩ := eq_of_requests hregular hfinds hv hplain (hown.alone uniform hasked) hasks
    obtain ⟨image', hshown, hupload'⟩ := (hsupplied.shows htold).2 t rfl
    rw [hshown, Traced.eq_of_uploaded hfresh hupload hupload']
  · intro hshown
    obtain ⟨hcurrent₁, hissues₁⟩ := hs.current.draws hbefore
    have halike := (b.lookUpImages_finds files s.settings.searchPath m.tile?).alike
    rw [b.found?_lookUpImages files s.settings.searchPath m.tile? hv] at hafter
    obtain ⟨hcurrent₃, texture?, hsupplied, hissued⟩ := hcurrent₁.bindTexture
      (halike.units ▸ hown.has) (b.imagePath? files s.settings.searchPath m.tile? v)
      s.settings.fallback?
    obtain ⟨-, hissues₃⟩ := hcurrent₃.draws hafter
    have hrest : ∀ {use}, use ∈ _ → use ∈ r₂.device.uses.drop s.renderer.device.uses.length :=
      fun huse => hissues₃.mem_drop hcurrent₃.started (List.drop_subset_drop_left _ hissues₁.length_le huse)
    obtain ⟨hnothing, hsomething⟩ := (hsupplied.mono (fun _ => hissues₃.mem)
      fun _ => hissues₃.mem_drop hcurrent₃.started).shows htold
    cases texture? with
    | none => cases hshown.symm.trans (hnothing rfl)
    | some t =>
      obtain ⟨image', hshown', hupload⟩ := hsomething t rfl
      obtain rfl := Option.some.inj (hshown.symm.trans hshown')
      obtain ⟨htexture, hunit⟩ := hissued t rfl
      rw [halike.program] at hunit
      exact ⟨m, b, unit, t, {}, hm, hb, hrest hunit, hrest htexture, hupload⟩

end FrameShows

/-! ## Files that are looked up -/

omit [Device δ] in
theorem exists_mem_imageFiles {b : ShaderBinding} {path : Path} (hm : m ∈ scene.materials)
    (hb : m.binding? = some b) (hpath : b.HasFound path) :
    path ∈ scene.materials.flatMap Material.imageFiles := by
  refine List.mem_flatMap.2 ⟨m, hm, ?_⟩
  unfold Material.imageFiles
  rw [hb]
  exact hpath

/-- What is in the cache when a material is shown was in it before, or was looked up for the
material. -/
theorem Presents.covered (h : s.Presents files scene i m r s')
    (hi : i < scene.materials.length) {key : Path}
    (hkey : (Ordered.get? key s'.renderer.images.entries).isSome = true) :
    (Ordered.get? key r.images.entries).isSome = true ∨
      ∃ scene path, s'.scene? = some scene ∧
        path ∈ scene.materials.flatMap Material.imageFiles ∧ key = ImageCache.key files path := by
  obtain ⟨b, b', r', -, -, hdraws, rfl⟩ := h
  refine (hdraws.keys hkey).imp_right ?_
  rintro ⟨uniform, path, fallback?, hasks, rfl⟩
  have hmem : m.withBound b' ∈ (scene.put i (m.withBound b')).materials :=
    List.mem_of_getElem? (List.getElem?_set_self hi)
  exact ⟨_, path, rfl, exists_mem_imageFiles hmem rfl (hasks.hasFound path rfl), rfl⟩

/-- Every entry of the cache was there before, or is that of a file. -/
theorem Moves.keys (h : Moves files s n s') {key : Path}
    (hkey : (Ordered.get? key s'.renderer.images.entries).isSome = true) :
    (Ordered.get? key s.renderer.images.entries).isSome = true ∨
      ∃ path, key = ImageCache.key files path := by
  have hpresented : ∀ {scene i m r s₁}, s.Presents files scene i m r s₁ →
      i < scene.materials.length →
      (Ordered.get? key s₁.renderer.images.entries).isSome = true →
      (Ordered.get? key r.images.entries).isSome = true ∨ ∃ path, key = ImageCache.key files path :=
    fun hpresents hi hkey => (hpresents.covered hi hkey).imp_right fun ⟨_, path, _, _, heq⟩ =>
      ⟨path, heq⟩
  cases h with
  | asked hcompiles => exact .inl (by rwa [← hcompiles.images])
  | loaded hprepared hpresents =>
    refine (hpresented hpresents hprepared.lt_length hkey).imp_left fun hold => ?_
    rwa [← hprepared.compiles.images]
  | reloaded _ hprepared hpresents =>
    refine (hpresented hpresents hprepared.lt_length hkey).imp_left fun hold => ?_
    rw [Renderer.get?_foldl_invalidate] at hold
    split at hold
    · cases hold
    · rwa [← hprepared.compiles.images]
  | shown _ hreadied _ hpresents =>
    obtain ⟨old, hmem, -⟩ := id hreadied
    refine (hpresented hpresents (List.getElem?_eq_some_iff.1 hmem).1 hkey).imp_left fun hold => ?_
    rwa [← hreadied.compiles.images]
  | dropped path =>
    rw [Renderer.get?_invalidate] at hkey
    split at hkey
    · cases hkey
    · exact .inl hkey

end MaterialViewer.Session
