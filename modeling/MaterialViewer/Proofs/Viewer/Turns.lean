import MaterialViewer.Proofs.Viewer.Steps

/-!
# Proofs: turns of a session

What each operation does to the session over a device of any kind, told exactly: it asks for a
program and fails, or it activates or draws a material of a scene, or it drops an image. Whatever is
to be kept by all operations only has to be kept by these.
-/

namespace MaterialViewer.Session

variable {δ : Type} [Device δ] {s s' : Session δ} {files : FileTree} {scene : Scene} {m : Material}
  {b : ShaderBinding} {r : Renderer δ} {i n : Nat}

/-- The second renderer comes about by asking for at most one program. -/
def Compiles (r r' : Renderer δ) : Prop := r' = r ∨ ∃ name source, r' = (r.program name source).2

/-- The binding and the renderer after activating a material. -/
def afterActivate (s : Session δ) (files : FileTree) (tile? : Option String) (b : ShaderBinding)
    (r : Renderer δ) : ShaderBinding × Renderer δ :=
  let (_, b, r) := b.bindImages files s.settings.searchPath tile? s.settings.fallback? (b.use r)
  (b, (b.bindMesh s.mesh r).2)

/-- The binding and the renderer after drawing the mesh. -/
def afterDraw (s : Session δ) (files : FileTree) (lights : LightRig) (tile? : Option String)
    (b : ShaderBinding) (r : Renderer δ) : ShaderBinding × Renderer δ :=
  let camera := s.settings.camera
  let search := s.settings.searchPath
  let r := b.bindView camera.world camera.view camera.projection (b.use r)
  let (_, b, r) := b.bindImages files search tile? s.settings.fallback? r
  let (b, r) := b.bindLights files search lights s.settings.environment r
  (b, s.mesh.partitions.foldl (fun r p => b.drawPartition p r) r)

/-- The session comes to show a scene with the material `m` at the position `i`, which is activated
or drawn. -/
def Exhibits (s : Session δ) (files : FileTree) (scene : Scene) (i : Nat) (m : Material)
    (r : Renderer δ) (s' : Session δ) : Prop :=
  ∃ b after, m.binding? = some b ∧
    (after = s.afterActivate files m.tile? b r ∨
      after = s.afterDraw files scene.lights m.tile? b r) ∧
    s' = { s with
      renderer := after.2
      scene? := some { scene.put i (m.withBound after.1) with selection := i } }

/-- What one operation does, with the number of documents that it loads. -/
inductive Turns (files : FileTree) (s : Session δ) : Nat → Session δ → Prop
  | asked {r : Renderer δ} (h : Compiles s.renderer r) : Turns files s 0 { s with renderer := r }
  | loaded {scene : Scene} {m : Material} {r : Renderer δ} {s' : Session δ}
      (hprepared : s.Prepared files scene m r)
      (hexhibits : s.Exhibits files scene scene.selection m r s') : Turns files s 1 s'
  | reloaded {old scene : Scene} {m : Material} {r : Renderer δ} {s' : Session δ}
      (hold : s.scene? = some old) (hprepared : s.Prepared files scene m r)
      (hexhibits : s.Exhibits files scene scene.selection m
        ((old.materials.flatMap Material.imageFiles).foldl (·.invalidate files ·) r) s') :
      Turns files s 0 { s' with renderer := s'.renderer.purgePrograms scene.programs }
  | shown {scene : Scene} {i : Nat} {m : Material} {r : Renderer δ} {s' : Session δ}
      (hscene : s.scene? = some scene) (hreadied : s.Readied files scene i m r)
      (hkept : ∀ old, scene.materials[i]? = some old → ∀ b, old.binding? = some b → m = old)
      (hexhibits : s.Exhibits files scene i m r s') : Turns files s 0 s'
  | dropped (path : Path) :
      Turns files s 0 { s with renderer := s.renderer.invalidate files path }

/-- The number of documents that an operation with a result has loaded. -/
def Operation.loads : Operation → Except SessionError Unit → Nat
  | .load _, .ok _ => 1
  | _, _ => 0

/-! ## Programs -/

theorem Compiles.images {r r' : Renderer δ} (h : Compiles r r') : r'.images = r.images := by
  rcases h with rfl | ⟨name, source, rfl⟩ <;> rfl

theorem generate_compiles (m : Material) (g : ShaderGenerator) (d : Document) (files : FileTree)
    (options : GeneratorOptions) (r : Renderer δ) :
    Compiles r (m.generate g d files options r).2 := m.generate_renderer g d files options r

theorem prepare_compiles (s : Session δ) (files : FileTree) (path : Path) (position : Nat) :
    Compiles s.renderer (s.prepare files path position).2 := by
  unfold prepare
  split
  · exact .inl rfl
  · dsimp only
    split
    · exact .inl rfl
    · rename_i blank hblank
      generalize hgenerate : blank.generate _ _ files s.options s.renderer = answer
      have hcompiles : Compiles s.renderer answer.2 := hgenerate ▸ generate_compiles ..
      obtain ⟨result, r⟩ := answer
      cases result <;> exact hcompiles

theorem Prepared.compiles (h : s.Prepared files scene m r) : Compiles s.renderer r := by
  obtain ⟨blank, -, hgenerate⟩ := h.generated
  have hcompiles := generate_compiles blank scene.generator scene.loaded.document files s.options
    s.renderer
  rwa [hgenerate] at hcompiles

theorem Readied.compiles (h : s.Readied files scene i m r) : Compiles s.renderer r := by
  obtain ⟨old, -, ⟨-, rfl, -⟩ | hgenerate⟩ := h
  · exact .inl rfl
  · have hcompiles := generate_compiles old scene.generator scene.loaded.document files s.options
      s.renderer
    rwa [hgenerate] at hcompiles

/-! ## Materials -/

/-- A material with a shader can be activated. -/
theorem activate_eq (s : Session δ) (files : FileTree) (h : m.binding? = some b)
    (r : Renderer δ) : s.activate files m r =
      .ok (m.withBound (s.afterActivate files m.tile? b r).1,
        (s.afterActivate files m.tile? b r).2) := by
  unfold activate
  rw [Material.bind_ok h]
  rfl

/-- A material with a shader can be drawn. -/
theorem drawMaterial_eq (s : Session δ) (files : FileTree) (scene : Scene)
    (h : m.binding? = some b) (r : Renderer δ) :
    s.drawMaterial files scene m r =
      .ok (m.withBound (s.afterDraw files scene.lights m.tile? b r).1,
        (s.afterDraw files scene.lights m.tile? b r).2) := by
  unfold drawMaterial
  rw [Material.bind_ok h]
  simp only [bind, Except.bind, Material.bindView_ok, Material.bindImages_ok,
    Material.bindLights_ok, Material.drawPartitions_ok, pure, Except.pure]
  rfl

/-- A scene whose selected material has a shader can be installed. -/
theorem install_exhibits (s : Session δ) (files : FileTree) (r : Renderer δ)
    (hselected : scene.selected? = some m) (hb : m.binding? = some b) :
    ∃ s', s.install files scene r = (.ok (), s') ∧
      s.Exhibits files scene scene.selection m r s' := by
  refine ⟨_, ?_, b, _, hb, .inl rfl, rfl⟩
  unfold install
  rw [hselected]
  dsimp only
  rw [s.activate_eq files hb]
  rfl

/-! ## Operations -/

theorem Turns.refl : Turns files s 0 s := .asked (.inl rfl)

/-- Loading asks for a program and fails, or shows a prepared scene. -/
theorem load_turns (s : Session δ) (files : FileTree) (path : Path) :
    Turns files s (Operation.loads (.load path) (s.load files path).1) (s.load files path).2 := by
  rcases s.load_outcome files path with
    ⟨e, r, hprepare, hload⟩ | ⟨scene, m, b, r, hprepared, hb, hload⟩
  · have hcompiles := s.prepare_compiles files path 0
    rw [hprepare] at hcompiles
    rw [hload]
    exact .asked hcompiles
  · obtain ⟨s', hinstall, hexhibits⟩ := s.install_exhibits files r hprepared.selected hb
    rw [hload, hinstall]
    exact .loaded hprepared hexhibits

/-- Reading again fails, or drops the images that the materials looked up and shows a prepared scene
in place of the old one. -/
theorem reload_turns (s : Session δ) (files : FileTree) :
    (∃ e r, s.reload files = (.error e, { s with renderer := r }) ∧ Compiles s.renderer r) ∨
      ∃ old scene m r s', s.scene? = some old ∧ s.Prepared files scene m r ∧
        s.Exhibits files scene scene.selection m
          ((old.materials.flatMap Material.imageFiles).foldl (·.invalidate files ·) r) s' ∧
        s.reload files =
          (.ok (), { s' with renderer := s'.renderer.purgePrograms scene.programs }) := by
  rcases s.reload_outcome files with
    ⟨e, r, hr, hreload⟩ | ⟨old, scene, m, b, r, hold, hprepared, hb, hreload⟩
  · refine .inl ⟨e, r, hreload, ?_⟩
    rcases hr with hr | ⟨path, position, hprepare⟩
    · exact .inl hr
    · have hcompiles := s.prepare_compiles files path position
      rwa [hprepare] at hcompiles
  · obtain ⟨s', hinstall, hexhibits⟩ := s.install_exhibits files
      ((old.materials.flatMap Material.imageFiles).foldl (·.invalidate files ·) r)
      hprepared.selected hb
    exact .inr ⟨old, scene, m, r, s', hold, hprepared, hexhibits, hreload s' hinstall⟩

theorem turns_of_reload (s : Session δ) (files : FileTree) :
    Turns files s 0 (s.reload files).2 := by
  rcases s.reload_turns files with
    ⟨e, r, hreload, hcompiles⟩ | ⟨old, scene, m, r, s', hold, hprepared, hexhibits, hreload⟩
  · rw [hreload]
    exact .asked hcompiles
  · rw [hreload]
    exact .reloaded hold hprepared hexhibits

/-- Selecting asks for a program and fails, or shows a material of the scene. -/
theorem select_turns (s : Session δ) (files : FileTree) (position : Nat) :
    Turns files s 0 (s.select files position).2 := by
  rcases s.select_outcome files position with
    ⟨e, r, hr, hselect⟩ | ⟨scene, m, b, r, hscene, hreadied, hkept, hb, hselect⟩
  · rw [hselect]
    refine .asked ?_
    rcases hr with hr | ⟨old, scene, e', hgenerate⟩
    · exact .inl hr
    · have hcompiles := generate_compiles old scene.generator scene.loaded.document files s.options
        s.renderer
      rwa [hgenerate] at hcompiles
  · rw [hselect _ _ (s.activate_eq files hb r)]
    exact .shown hscene hreadied hkept ⟨b, _, hb, .inl rfl, rfl⟩

theorem draw_turns (s : Session δ) (files : FileTree) : Turns files s 0 (s.draw files).2 := by
  unfold draw
  cases hscene : s.scene? with
  | none => exact .refl
  | some scene =>
    dsimp only
    cases hselected : scene.selected? with
    | none => exact .refl
    | some m =>
      dsimp only
      cases hbinding : m.binding? with
      | none =>
        unfold drawMaterial Material.bind
        rw [hbinding]
        exact .refl
      | some b =>
        rw [s.drawMaterial_eq files scene hbinding]
        exact .shown hscene ⟨m, hselected, .inl ⟨rfl, rfl, b, hbinding⟩⟩
          (fun old hold _ _ => Option.some.inj (hselected.symm.trans hold))
          ⟨b, _, hbinding, .inr rfl, rfl⟩

/-- What an operation does. -/
theorem perform_turns (s : Session δ) (files : FileTree) (op : Operation) :
    Turns files s (op.loads (s.perform files op).1) (s.perform files op).2 := by
  cases op with
  | load path => exact s.load_turns files path
  | reload => exact s.turns_of_reload files
  | select position => exact s.select_turns files position
  | selectNext =>
    show Turns files s 0 (s.selectNext files).2
    unfold selectNext
    cases s.scene? with
    | none => exact .refl
    | some scene => exact s.select_turns files _
  | selectPrevious =>
    show Turns files s 0 (s.selectPrevious files).2
    unfold selectPrevious
    cases s.scene? with
    | none => exact .refl
    | some scene => exact s.select_turns files _
  | draw => exact s.draw_turns files
  | saveShaders => exact .refl
  | event event =>
    show Turns files s 0 (s.handleEvent files event).2
    rcases s.handleEvent_cases files event with hevent | hevent | ⟨path, hevent⟩
    · rw [hevent]
      exact s.turns_of_reload files
    · rw [hevent]
      exact .refl
    · rw [hevent]
      exact .dropped path

end MaterialViewer.Session
