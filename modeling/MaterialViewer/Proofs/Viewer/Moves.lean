import MaterialViewer.Proofs.Rendering.Pictures
import MaterialViewer.Proofs.Viewer.Turns

/-!
# Proofs: moves of a session

What each turn of the session draws: it asks for a program and fails, or it shows a material of a
scene, or it drops an image. In a scene that stays, a material that has a shader keeps it, with the
files that were looked up for it.
-/

namespace MaterialViewer.Session

open Renderer (Draws)

variable {δ : Type} [Device δ] {s s' : Session δ} {files : FileTree} {scene : Scene} {m : Material}
  {b : ShaderBinding} {r : Renderer δ} {i n : Nat}

/-- What the samplers of a binding for a tile are asked to show. -/
def requests (s : Session δ) (tile? : Option String) (b : ShaderBinding) : Requests :=
  b.Asks tile? s.settings.fallback? s.settings.environment

/-- The session comes to show a scene with the material `m` at the position `i`, whose binding looks
files up and draws with them. -/
def Presents (s : Session δ) (files : FileTree) (scene : Scene) (i : Nat) (m : Material)
    (r : Renderer δ) (s' : Session δ) : Prop :=
  ∃ b b' r', m.binding? = some b ∧ b.Finds files s.settings.searchPath b' ∧
    Draws files b (s.requests m.tile? b') r r' ∧
    s' = { s with
      renderer := r'
      scene? := some { scene.put i (m.withBound b') with selection := i } }

/-- What one operation does, with the number of documents that it loads. -/
inductive Moves (files : FileTree) (s : Session δ) : Nat → Session δ → Prop
  | asked {r : Renderer δ} (h : Compiles s.renderer r) : Moves files s 0 { s with renderer := r }
  | loaded {scene : Scene} {m : Material} {r : Renderer δ} {s' : Session δ}
      (hprepared : s.Prepared files scene m r)
      (hpresents : s.Presents files scene scene.selection m r s') : Moves files s 1 s'
  | reloaded {old scene : Scene} {m : Material} {r : Renderer δ} {s' : Session δ}
      (hold : s.scene? = some old) (hprepared : s.Prepared files scene m r)
      (hpresents : s.Presents files scene scene.selection m
        ((old.materials.flatMap Material.imageFiles).foldl (·.invalidate files ·) r) s') :
      Moves files s 0 { s' with renderer := s'.renderer.purgePrograms scene.programs }
  | shown {scene : Scene} {i : Nat} {m : Material} {r : Renderer δ} {s' : Session δ}
      (hscene : s.scene? = some scene) (hreadied : s.Readied files scene i m r)
      (hkept : ∀ old, scene.materials[i]? = some old → ∀ b, old.binding? = some b → m = old)
      (hpresents : s.Presents files scene i m r s') : Moves files s 0 s'
  | dropped (path : Path) :
      Moves files s 0 { s with renderer := s.renderer.invalidate files path }

theorem afterActivate_draws (s : Session δ) (files : FileTree) (tile? : Option String)
    (b : ShaderBinding) (r : Renderer δ) :
    b.Finds files s.settings.searchPath (s.afterActivate files tile? b r).1 ∧
      Draws files b (s.requests tile? (s.afterActivate files tile? b r).1) r
        (s.afterActivate files tile? b r).2 := by
  obtain ⟨hfinds, himages⟩ := ShaderBinding.bindImages_draws (b.use r) b files
    s.settings.searchPath tile? s.settings.fallback? s.settings.environment
  exact ⟨hfinds,
    ((ShaderBinding.use_draws r b).trans himages).trans (ShaderBinding.bindMesh_draws _ _ s.mesh)⟩

/-- Activating a material supplies the sampler of each image. -/
theorem afterActivate_passes (s : Session δ) (files : FileTree) (tile? : Option String)
    (b : ShaderBinding) (r : Renderer δ) {v : ShaderVariable} (hv : v ∈ b.shader.imageUniforms) :
    let b' := (s.afterActivate files tile? b r).1
    ∃ r₁, Draws files b (s.requests tile? b') r r₁ ∧
      Draws files b (s.requests tile? b')
        (b'.bindTexture files v.name ((ShaderBinding.imageName? tile? v).bind b'.found?)
          s.settings.fallback? r₁).2 (s.afterActivate files tile? b r).2 := by
  intro b'
  obtain ⟨r₁, hbefore, hafter⟩ := ShaderBinding.bindImages_passes (b.use r) b files
    s.settings.searchPath tile? s.settings.fallback? s.settings.environment hv
  exact ⟨r₁, (ShaderBinding.use_draws r b).trans hbefore,
    hafter.trans (ShaderBinding.bindMesh_draws _ _ s.mesh)⟩

/-- Drawing supplies the sampler of each image. -/
theorem afterDraw_passes (s : Session δ) (files : FileTree) (lights : LightRig)
    (tile? : Option String) (b : ShaderBinding) (r : Renderer δ) {v : ShaderVariable}
    (hv : v ∈ b.shader.imageUniforms) :
    let b₁ := b.lookUpImages files s.settings.searchPath tile?
    let after := s.afterDraw files lights tile? b r
    b₁.Finds files s.settings.searchPath after.1 ∧ ∃ r₁,
      Draws files b (s.requests tile? after.1) r r₁ ∧
      Draws files b (s.requests tile? after.1)
        (b₁.bindTexture files v.name ((ShaderBinding.imageName? tile? v).bind b₁.found?)
          s.settings.fallback? r₁).2 after.2 := by
  intro b₁ after
  let view := b.bindView s.settings.camera.world s.settings.camera.view s.settings.camera.projection
    (b.use r)
  obtain ⟨r₁, hbefore, hafter⟩ := ShaderBinding.bindImages_passes view b files
    s.settings.searchPath tile? s.settings.fallback? s.settings.environment hv
  have hlooked : b.Finds files s.settings.searchPath b₁ := b.lookUpImages_finds files _ tile?
  obtain ⟨hfinds, hlights⟩ := ShaderBinding.bindLights_draws
    (b.bindImages files s.settings.searchPath tile? s.settings.fallback? view).2.2 b₁ files
    s.settings.searchPath tile? s.settings.fallback? lights s.settings.environment
  have hview : ∀ asks, Draws files b asks r view := fun asks =>
    (ShaderBinding.use_draws r b).trans (ShaderBinding.bindView_draws (b.use r) b _ _ _)
  refine ⟨hfinds, r₁, ((hview _).trans hbefore).mono fun _ _ _ hasks => hasks.finds hfinds, ?_⟩
  exact ((hafter.mono fun _ _ _ hasks => hasks.finds hfinds).trans
    (hlights.alike hlooked.alike)).trans (ShaderBinding.drawPartitions_draws _ _ _)

theorem afterDraw_draws (s : Session δ) (files : FileTree) (lights : LightRig)
    (tile? : Option String) (b : ShaderBinding) (r : Renderer δ) :
    b.Finds files s.settings.searchPath (s.afterDraw files lights tile? b r).1 ∧
      Draws files b (s.requests tile? (s.afterDraw files lights tile? b r).1) r
        (s.afterDraw files lights tile? b r).2 := by
  unfold afterDraw
  dsimp only
  have hview : ∀ asks, Draws files b asks r (b.bindView s.settings.camera.world
      s.settings.camera.view s.settings.camera.projection (b.use r)) := fun asks =>
    (ShaderBinding.use_draws r b).trans (ShaderBinding.bindView_draws (b.use r) b _ _ _)
  generalize b.bindView s.settings.camera.world s.settings.camera.view s.settings.camera.projection
    (b.use r) = r₀ at hview
  obtain ⟨hfinds, himages⟩ := ShaderBinding.bindImages_draws r₀ b files s.settings.searchPath tile?
    s.settings.fallback? s.settings.environment
  generalize b.bindImages files s.settings.searchPath tile? s.settings.fallback? r₀ = answer
    at hfinds himages
  obtain ⟨count, b₁, r₁⟩ := answer
  obtain ⟨hfinds', hlights⟩ := ShaderBinding.bindLights_draws r₁ b₁ files s.settings.searchPath
    tile? s.settings.fallback? lights s.settings.environment
  refine ⟨hfinds.trans hfinds', ?_⟩
  have himages' := ((hview _).trans himages).mono fun _ _ _ hasks => hasks.finds hfinds'
  exact (himages'.trans (hlights.alike hfinds.alike)).trans
    (ShaderBinding.drawPartitions_draws _ _ _)

/-! ## Each operation -/

theorem Exhibits.presents (h : s.Exhibits files scene i m r s') :
    s.Presents files scene i m r s' := by
  obtain ⟨b, after, hb, rfl | rfl, rfl⟩ := h
  · obtain ⟨hfinds, hdraws⟩ := s.afterActivate_draws files m.tile? b r
    exact ⟨b, _, _, hb, hfinds, hdraws, rfl⟩
  · obtain ⟨hfinds, hdraws⟩ := s.afterDraw_draws files scene.lights m.tile? b r
    exact ⟨b, _, _, hb, hfinds, hdraws, rfl⟩

theorem Turns.moves (h : Turns files s n s') : Moves files s n s' := by
  cases h with
  | asked hcompiles => exact .asked hcompiles
  | loaded hprepared hexhibits => exact .loaded hprepared hexhibits.presents
  | reloaded hold hprepared hexhibits => exact .reloaded hold hprepared hexhibits.presents
  | shown hscene hreadied hkept hexhibits =>
    exact .shown hscene hreadied hkept hexhibits.presents
  | dropped path => exact .dropped path

/-- Reading again fails, or drops the images that the materials looked up and shows a prepared scene
in place of the old one. -/
theorem reload_moves (s : Session δ) (files : FileTree) :
    (∃ e r, s.reload files = (.error e, { s with renderer := r }) ∧ Compiles s.renderer r) ∨
      ∃ old scene m r s', s.scene? = some old ∧ s.Prepared files scene m r ∧
        s.Presents files scene scene.selection m
          ((old.materials.flatMap Material.imageFiles).foldl (·.invalidate files ·) r) s' ∧
        s.reload files =
          (.ok (), { s' with renderer := s'.renderer.purgePrograms scene.programs }) := by
  refine (s.reload_turns files).imp_right ?_
  rintro ⟨old, scene, m, r, s', hold, hprepared, hexhibits, hreload⟩
  exact ⟨old, scene, m, r, s', hold, hprepared, hexhibits.presents, hreload⟩

/-- What an operation does. -/
theorem perform_moves (s : Session δ) (files : FileTree) (op : Operation) :
    Moves files s (op.loads (s.perform files op).1) (s.perform files op).2 :=
  (s.perform_turns files op).moves

/-! ## What every operation keeps -/

omit [Device δ] in
theorem start_eq {settings : Settings} {device : δ} {s : Session δ}
    (h : Session.start settings device files = .ok s) :
    s.settings = settings ∧ s.renderer = { device } ∧ s.scene? = none := by
  unfold Session.start at h
  split at h
  · cases h
  · obtain rfl := Except.ok.inj h
    exact ⟨rfl, rfl, rfl⟩

theorem Moves.settings_eq (h : Moves files s n s') : s'.settings = s.settings := by
  cases h with
  | asked | dropped => rfl
  | loaded _ hpresents | reloaded _ _ hpresents | shown _ _ _ hpresents =>
    obtain ⟨b, b', r', -, -, -, rfl⟩ := hpresents
    rfl

section Device

variable {I : δ → Prop}

theorem Compiles.kept {r' : Renderer δ} (h : Compiles r r') (hI : Kept I) (hr : I r.device) :
    I r'.device := by
  rcases h with rfl | ⟨name, source, rfl⟩
  · exact hr
  · rcases r.program_device name source with hdevice | hdevice
    · exact hdevice ▸ hr
    · exact hdevice ▸ hI.compile _ _ _ hr

theorem Presents.kept (h : s.Presents files scene i m r s') (hI : Kept I)
    (hr : I r.device) : I s'.renderer.device := by
  obtain ⟨b, b', r', -, -, hdraws, rfl⟩ := h
  exact hdraws.driven.kept hI hr

theorem purgePrograms_kept (hI : Kept I) (held : List ProgramId) (hr : I r.device) :
    I (r.purgePrograms held).device := by
  show I ((r.programs.unused held).foldl _ r.device)
  generalize r.device = device at hr
  induction r.programs.unused held generalizing device with
  | nil => exact hr
  | cons p rest ih => exact ih _ (hI.command _ _ hr)

/-- What every use of a device keeps is kept. -/
theorem Moves.kept (h : Moves files s n s') (hI : Kept I) (hs : I s.renderer.device) :
    I s'.renderer.device := by
  have hdrop : ∀ (paths : List Path) {r : Renderer δ}, I r.device →
      I (paths.foldl (·.invalidate files ·) r).device := fun paths r hr =>
    (Renderer.foldl_drivenBy (P := fun _ => True) paths
      (fun path _ r => r.invalidate_drivenBy files path fun _ => trivial) r).device.kept hI hr
  cases h with
  | asked hcompiles => exact hcompiles.kept hI hs
  | loaded hprepared hpresents => exact hpresents.kept hI (hprepared.compiles.kept hI hs)
  | reloaded _ hprepared hpresents =>
    exact purgePrograms_kept hI _ (hpresents.kept hI (hdrop _ (hprepared.compiles.kept hI hs)))
  | shown _ hreadied _ hpresents => exact hpresents.kept hI (hreadied.compiles.kept hI hs)
  | dropped path => exact hdrop [path] hs

end Device

section Bindings

variable {P : ShaderBinding → Prop}

omit [Device δ] in
/-- All bindings of the scene have the property. -/
def AllBindings (P : ShaderBinding → Prop) (s : Session δ) : Prop :=
  ∀ scene, s.scene? = some scene → ∀ m ∈ scene.materials, ∀ b, m.binding? = some b → P b

theorem Presents.allBindings (h : s.Presents files scene i m r s')
    (hscene : ∀ m ∈ scene.materials, ∀ b, m.binding? = some b → P b)
    (hm : ∀ b, m.binding? = some b → P b)
    (hfinds : ∀ b b', b.Finds files s.settings.searchPath b' → P b → P b') : s'.AllBindings P := by
  obtain ⟨b, b', r', hb, hfound, -, rfl⟩ := h
  rintro _ hscene' m' hm' b'' hb''
  obtain rfl := Option.some.inj hscene'
  rcases List.mem_or_eq_of_mem_set hm' with hold | rfl
  · exact hscene m' hold b'' hb''
  · obtain rfl := Option.some.inj hb''
    exact hfinds b b' hfound (hm b hb)

/-- What new bindings have, and what looking files up keeps, all bindings have. -/
theorem Moves.allBindings (h : Moves files s n s') (hs : s.AllBindings P)
    (hnew : ∀ (g : ShaderGenerator) d path options shader program,
      g.generate d files path options = .ok shader → P (.new shader program))
    (hfinds : ∀ b b', b.Finds files s.settings.searchPath b' → P b → P b') : s'.AllBindings P := by
  have hgenerated : ∀ {blank m : Material} {g : ShaderGenerator} {d : Document} {r : Renderer δ},
      blank.generate g d files s.options s.renderer = (.ok m, r) →
      ∀ b, m.binding? = some b → P b := by
    intro blank m g d r hgenerate b hb
    obtain ⟨shader, program, rfl, hshader, -⟩ := Material.generate_ok hgenerate
    obtain rfl := Option.some.inj hb
    exact hnew _ _ _ _ _ _ hshader
  have hprepare : ∀ {scene : Scene} {m : Material} {r : Renderer δ}, s.Prepared files scene m r →
      (∀ m ∈ scene.materials, ∀ b, m.binding? = some b → P b) ∧
        ∀ b, m.binding? = some b → P b := by
    intro scene m r hprepared
    obtain ⟨blank, -, hgenerate⟩ := hprepared.generated
    refine ⟨fun m' hm' b hb => ?_, hgenerated hgenerate⟩
    rw [hprepared.materials] at hm'
    rcases List.mem_or_eq_of_mem_set hm' with hold | rfl
    · obtain ⟨subset, -, rfl⟩ := List.mem_map.1 hold
      cases hb
    · exact hgenerated hgenerate b hb
  cases h with
  | asked | dropped => exact hs
  | loaded hprepared hpresents =>
    exact hpresents.allBindings (hprepare hprepared).1 (hprepare hprepared).2 hfinds
  | reloaded _ hprepared hpresents =>
    exact hpresents.allBindings (hprepare hprepared).1 (hprepare hprepared).2 hfinds
  | @shown scene i m r s' hscene hreadied _ hpresents =>
    refine hpresents.allBindings (hs scene hscene) ?_ hfinds
    obtain ⟨old, hold, ⟨rfl, -, -⟩ | hgenerate⟩ := hreadied
    · exact hs scene hscene m (List.mem_of_getElem? hold)
    · exact hgenerated hgenerate

end Bindings

end MaterialViewer.Session
