import MaterialViewer.Proofs.Rendering.Material
import MaterialViewer.Viewer.Session

/-!
# Proofs: steps of a session

What each operation of a session does. Whatever can fail comes first: once the material that is to
be shown has a shader, making it the shown one cannot fail. So an operation over a headless device
either fails and leaves the session as it is, or ends with a material shown.
-/

namespace MaterialViewer

/-- The operations of a session. -/
inductive Session.Operation
  | load (path : Path)
  | reload
  | select (position : Nat)
  | selectNext
  | selectPrevious
  | draw
  | saveShaders
  | event (e : FileEvent)

namespace Session

open Renderer (DrivenBy)

section Steps

variable {δ : Type} [Device δ] {m : Material} {b : ShaderBinding}

/-- Carry out an operation. Saving sources leaves the session as it is. -/
def perform (s : Session δ) (files : FileTree) : Operation → Except SessionError Unit × Session δ
  | .load path => s.load files path
  | .reload => s.reload files
  | .select position => s.select files position
  | .selectNext => s.selectNext files
  | .selectPrevious => s.selectPrevious files
  | .draw => s.draw files
  | .saveShaders => ((s.saveShaders files).1.map fun _ => (), s)
  | .event e => s.handleEvent files e

/-- The session comes to show a scene with the material `m` at the position `i`: the program of `m`
was made current, and its binding was used to draw. -/
def Shows (s : Session δ) (scene : Scene) (i : Nat) (m : Material) (r : Renderer δ)
    (s' : Session δ) : Prop :=
  ∃ b b' r', m.binding? = some b ∧ b.Alike b' ∧ DrivenBy b.Gives (b.use r) r' ∧
    s' = { s with
      renderer := r'
      scene? := some { scene.put i (m.withBound b') with selection := i } }

/-- The scene was prepared: its materials are new, and only the selected one has a shader. -/
structure Prepared (s : Session δ) (files : FileTree) (scene : Scene) (m : Material)
    (r : Renderer δ) : Prop where
  generated : ∃ blank, (scene.loaded.subsets.map Material.ofSubset)[scene.selection]? = some blank ∧
    blank.generate scene.generator scene.loaded.document files s.options s.renderer = (.ok m, r)
  materials : scene.materials =
    (scene.loaded.subsets.map Material.ofSubset).set scene.selection m

/-- The material at a position of a scene has a shader already, or gets one. -/
def Readied (s : Session δ) (files : FileTree) (scene : Scene) (i : Nat) (m : Material)
    (r : Renderer δ) : Prop :=
  ∃ old, scene.materials[i]? = some old ∧
    ((m = old ∧ r = s.renderer ∧ ∃ b, m.binding? = some b) ∨
      old.generate scene.generator scene.loaded.document files s.options s.renderer = (.ok m, r))

/-- A material with a shader can be activated. -/
theorem activate_ok (s : Session δ) (files : FileTree) (h : m.binding? = some b) (r : Renderer δ) :
    ∃ b' r', s.activate files m r = .ok (m.withBound b', r') ∧ b.Alike b' ∧
      DrivenBy b.Gives (b.use r) r' := by
  obtain ⟨halike, himages⟩ := b.bindImages_spec files s.settings.searchPath m.tile?
    s.settings.fallback? (b.use r)
  refine ⟨_, _, ?_, halike, himages.trans ((ShaderBinding.bindMesh_drivenBy _ s.mesh _).mono
    fun _ => halike.gives)⟩
  unfold activate
  rw [Material.bind_ok h]
  rfl

/-- An activated material is shown when it is put into the scene and selected. -/
theorem activate_shows (s : Session δ) (files : FileTree) (scene : Scene) (i : Nat)
    (h : ∃ b, m.binding? = some b) (r : Renderer δ) :
    ∃ m' r', s.activate files m r = .ok (m', r') ∧ s.Shows scene i m r { s with
      renderer := r'
      scene? := some { scene.put i m' with selection := i } } := by
  obtain ⟨b, hb⟩ := h
  obtain ⟨b', r', hactivate, halike, hdriven⟩ := s.activate_ok files hb r
  exact ⟨_, r', hactivate, b, b', r', hb, halike, hdriven, rfl⟩

/-- A material with a shader can be drawn. -/
theorem drawMaterial_ok (s : Session δ) (files : FileTree) (scene : Scene)
    (h : m.binding? = some b) (r : Renderer δ) :
    ∃ b' r', s.drawMaterial files scene m r = .ok (m.withBound b', r') ∧
      b.Alike b' ∧ DrivenBy b.Gives (b.use r) r' := by
  have hview := b.bindView_drivenBy s.settings.camera.world s.settings.camera.view
    s.settings.camera.projection (b.use r)
  generalize hr₁ : b.bindView s.settings.camera.world s.settings.camera.view
    s.settings.camera.projection (b.use r) = r₁ at hview
  have himages := b.bindImages_spec files s.settings.searchPath m.tile? s.settings.fallback? r₁
  generalize hb₂ : b.bindImages files s.settings.searchPath m.tile? s.settings.fallback? r₁ = images
    at himages
  obtain ⟨count, b₂, r₂⟩ := images
  obtain ⟨halike, himages⟩ := himages
  have hlights := b₂.bindLights_spec files s.settings.searchPath scene.lights
    s.settings.environment r₂
  generalize hb₃ : b₂.bindLights files s.settings.searchPath scene.lights s.settings.environment r₂
    = lights at hlights
  obtain ⟨b₃, r₃⟩ := lights
  obtain ⟨halike', hlights⟩ := hlights
  have hdrawn := Renderer.foldl_drivenBy s.mesh.partitions
    (fun p _ r => b₃.drawPartition_drivenBy p r) r₃
  refine ⟨b₃, _, ?_, halike.trans halike', ((hview.trans himages).trans
    (hlights.mono fun _ => halike.gives)).trans (hdrawn.mono fun _ => (halike.trans halike').gives)⟩
  unfold drawMaterial
  rw [Material.bind_ok h]
  simp only [bind, Except.bind, Material.bindView_ok, Material.bindImages_ok, Material.bindLights_ok,
    Material.drawPartitions_ok, pure, Except.pure, hr₁, hb₂, hb₃]

theorem prepare_ok {s : Session δ} {files : FileTree} {path : Path} {position : Nat} {scene : Scene}
    {r : Renderer δ} (h : s.prepare files path position = (.ok scene, r)) :
    ∃ m, s.Prepared files scene m r := by
  unfold prepare at h
  split at h
  · cases (Prod.mk.inj h).1
  · rename_i d hd
    dsimp only at h
    generalize d.merge s.library s.settings.modifiers (some s.settings.generator.target) = loaded
      at h
    generalize (if position < (loaded.subsets.map Material.ofSubset).length then position else 0)
      = selection at h
    split at h
    · cases (Prod.mk.inj h).1
    · rename_i blank hblank
      split at h
      · cases (Prod.mk.inj h).1
      · rename_i m r₁ hm
        obtain ⟨hscene, rfl⟩ := Prod.mk.inj h
        obtain rfl := Except.ok.inj hscene
        exact ⟨m, ⟨blank, hblank, hm⟩, rfl⟩

theorem Prepared.selected {s : Session δ} {files : FileTree} {scene : Scene} {r : Renderer δ}
    (h : s.Prepared files scene m r) : scene.selected? = some m := by
  obtain ⟨blank, hblank, -⟩ := h.generated
  have hlt := (List.getElem?_eq_some_iff.1 hblank).1
  unfold Scene.selected?
  rw [h.materials, List.getElem?_set_self hlt]

theorem generate_binding {g : ShaderGenerator} {d : Document} {files : FileTree}
    {options : GeneratorOptions} {m' : Material} {r r' : Renderer δ}
    (h : m.generate g d files options r = (.ok m', r')) : ∃ b, m'.binding? = some b := by
  obtain ⟨shader, program, rfl, -⟩ := Material.generate_ok h
  exact ⟨_, rfl⟩

/-- A scene whose selected material has a shader can be installed. -/
theorem install_ok (s : Session δ) (files : FileTree) {scene : Scene} (r : Renderer δ)
    (hselected : scene.selected? = some m) (hb : m.binding? = some b) :
    ∃ s', s.install files scene r = (.ok (), s') ∧ s.Shows scene scene.selection m r s' := by
  obtain ⟨b', r', hactivate, halike, hdriven⟩ := s.activate_ok files hb r
  refine ⟨_, ?_, b, b', r', hb, halike, hdriven, rfl⟩
  unfold install
  rw [hselected]
  dsimp only
  rw [hactivate]
  rfl

theorem draw_error {s s' : Session δ} {files : FileTree} {e : SessionError}
    (h : s.draw files = (.error e, s')) : s' = s := by
  unfold draw at h
  split at h
  · cases (Prod.mk.inj h).1
  · split at h
    · exact (Prod.mk.inj h).2.symm
    · split at h
      · exact (Prod.mk.inj h).2.symm
      · cases (Prod.mk.inj h).1

/-- A scene whose selected material has a shader can be drawn. -/
theorem draw_ok (s : Session δ) (files : FileTree) {scene : Scene} (hscene : s.scene? = some scene)
    (hselected : scene.selected? = some m) (hb : m.binding? = some b) :
    ∃ s', s.draw files = (.ok (), s') ∧ s.Shows scene scene.selection m s.renderer s' := by
  obtain ⟨b', r', hdraw, halike, hdriven⟩ := s.drawMaterial_ok files scene hb s.renderer
  refine ⟨_, ?_, b, b', r', hb, halike, hdriven, rfl⟩
  unfold draw
  rw [hscene]
  dsimp only
  rw [hselected]
  dsimp only
  rw [hdraw]
  rfl

/-! ### What operations come to -/

theorem Prepared.exists_binding {s : Session δ} {files : FileTree} {scene : Scene}
    {r : Renderer δ} (h : s.Prepared files scene m r) : ∃ b, m.binding? = some b := by
  obtain ⟨blank, -, hgenerate⟩ := h.generated
  exact generate_binding hgenerate

/-- Loading fails because no scene can be prepared, or installs the prepared scene. -/
theorem load_outcome (s : Session δ) (files : FileTree) (path : Path) :
    (∃ e r, s.prepare files path 0 = (.error e, r) ∧
        s.load files path = (.error e, { s with renderer := r })) ∨
      ∃ scene m b r, s.Prepared files scene m r ∧ m.binding? = some b ∧
        s.load files path = s.install files scene r := by
  unfold load
  cases hprepare : s.prepare files path 0 with
  | mk result r =>
    cases result with
    | error e => exact .inl ⟨e, r, rfl, rfl⟩
    | ok scene =>
      obtain ⟨m, hprepared⟩ := prepare_ok hprepare
      obtain ⟨b, hb⟩ := hprepared.exists_binding
      exact .inr ⟨scene, m, b, r, hprepared, hb, rfl⟩

/-- Reading again fails because nothing is shown or no scene can be prepared, or drops the images
that the materials looked up, installs the prepared scene and then releases the programs that the
scene does not hold. -/
theorem reload_outcome (s : Session δ) (files : FileTree) :
    (∃ e r, (r = s.renderer ∨ ∃ path position, s.prepare files path position = (.error e, r)) ∧
        s.reload files = (.error e, { s with renderer := r })) ∨
      ∃ old scene m b r, s.scene? = some old ∧ s.Prepared files scene m r ∧ m.binding? = some b ∧
        ∀ s', s.install files scene
            ((old.materials.flatMap Material.imageFiles).foldl (·.invalidate files ·) r) =
              (.ok (), s') →
          s.reload files =
            (.ok (), { s' with renderer := s'.renderer.purgePrograms scene.programs }) := by
  unfold reload
  cases hscene : s.scene? with
  | none =>
    refine .inl ⟨.noMaterial, s.renderer, .inl rfl, ?_⟩
    dsimp only
    rw [← hscene]
  | some old =>
    dsimp only
    cases hprepare : s.prepare files old.path old.selection with
    | mk result r =>
      cases result with
      | error e => exact .inl ⟨e, r, .inr ⟨_, _, hprepare⟩, by dsimp only⟩
      | ok scene =>
        obtain ⟨m, hprepared⟩ := prepare_ok hprepare
        obtain ⟨b, hb⟩ := hprepared.exists_binding
        refine .inr ⟨old, scene, m, b, r, rfl, hprepared, hb, fun s' hinstall => ?_⟩
        dsimp only
        rw [hinstall]

/-- Selecting fails because there is no material or no shader for it, or activates the material at
the position, which is the one that was there if that had a shader. -/
theorem select_outcome (s : Session δ) (files : FileTree) (position : Nat) :
    (∃ e r, (r = s.renderer ∨ ∃ (old : Material) (scene : Scene) (e' : MaterialError),
          old.generate scene.generator scene.loaded.document files s.options s.renderer =
            (.error e', r)) ∧
        s.select files position = (.error e, { s with renderer := r })) ∨
      ∃ scene m b r, s.scene? = some scene ∧
        s.Readied files scene (position % scene.materials.length) m r ∧
        (∀ old, scene.materials[position % scene.materials.length]? = some old →
          ∀ b, old.binding? = some b → m = old) ∧
        m.binding? = some b ∧
        ∀ m' r', s.activate files m r = .ok (m', r') →
          s.select files position = (.ok (), { s with
            renderer := r'
            scene? := some
              { scene.put (position % scene.materials.length) m' with
                selection := position % scene.materials.length } }) := by
  unfold select
  cases hscene : s.scene? with
  | none =>
    refine .inl ⟨.noSelection, s.renderer, .inl rfl, ?_⟩
    dsimp only
    rw [← hscene]
  | some scene =>
    dsimp only
    cases hold : scene.materials[position % scene.materials.length]? with
    | none =>
      refine .inl ⟨.noSelection, s.renderer, .inl rfl, ?_⟩
      dsimp only
      rw [← hscene]
    | some old =>
      dsimp only
      by_cases hshader : old.shader?.isSome
      · rw [if_pos hshader]
        obtain ⟨b, hb⟩ := Material.exists_binding_of_shader? hshader
        refine .inr ⟨scene, old, b, s.renderer, rfl, ⟨old, hold, .inl ⟨rfl, rfl, b, hb⟩⟩,
          fun old' hold' _ _ => Option.some.inj (hold.symm.trans hold'), hb,
          fun m' r' hactivate => ?_⟩
        dsimp only
        rw [hactivate]
      · rw [if_neg hshader]
        cases hgenerate : old.generate scene.generator scene.loaded.document files s.options
            s.renderer with
        | mk result r =>
          cases result with
          | error e =>
            exact .inl ⟨.material e, r, .inr ⟨old, scene, e, hgenerate⟩, by dsimp only⟩
          | ok m =>
            obtain ⟨b, hb⟩ := generate_binding hgenerate
            refine .inr ⟨scene, m, b, r, rfl, ⟨old, hold, .inr hgenerate⟩,
              fun old' hold' b' hb' => ?_, hb, fun m' r' hactivate => ?_⟩
            · obtain rfl := Option.some.inj (hold.symm.trans hold')
              exact (hshader (by
                rw [Material.shader?, hb']
                rfl)).elim
            · dsimp only
              rw [hactivate]

/-- An event reads the document again, drops an image, or is passed over. -/
theorem handleEvent_cases (s : Session δ) (files : FileTree) (e : FileEvent) :
    s.handleEvent files e = s.reload files ∨ s.handleEvent files e = (.ok (), s) ∨
      ∃ path, s.handleEvent files e =
        (.ok (), { s with renderer := s.renderer.invalidate files path }) := by
  have hchange : ∀ (path : Path) (isGone : Bool),
      let answer := if [Document.fileExtension, "glsl"].contains (path.extension?.getD "") then
        if s.scene?.isSome && !isGone then s.reload files else (.ok (), s)
        else (.ok (), { s with renderer := s.renderer.invalidate files path })
      answer = s.reload files ∨ answer = (.ok (), s) ∨
        ∃ path, answer = (.ok (), { s with renderer := s.renderer.invalidate files path }) := by
    intro path isGone
    dsimp only
    split
    · split
      · exact .inl rfl
      · exact .inr (.inl rfl)
    · exact .inr (.inr ⟨path, rfl⟩)
  cases e with
  | created path => exact hchange path false
  | modified path => exact hchange path false
  | deleted path => exact hchange path true
  | failed reason => exact .inr (.inl rfl)

end Steps

/-! ## Over a headless device -/

variable {s : Session Headless} {files : FileTree}

theorem prepare_error {path : Path} {position : Nat} {e : SessionError} {r : Renderer Headless}
    (h : s.prepare files path position = (.error e, r)) : r = s.renderer := by
  unfold prepare at h
  split at h
  · exact (Prod.mk.inj h).2.symm
  · dsimp only at h
    split at h
    · exact (Prod.mk.inj h).2.symm
    · split at h
      · rename_i e' r₁ hm
        obtain ⟨-, rfl⟩ := Prod.mk.inj h
        exact Material.generate_error hm
      · cases (Prod.mk.inj h).1

/-- Loading fails without effect, or shows a prepared scene. -/
theorem load_cases (s : Session Headless) (files : FileTree) (path : Path) :
    (∃ e, s.load files path = (.error e, s)) ∨
      ∃ scene m r s', s.load files path = (.ok (), s') ∧ s.Prepared files scene m r ∧
        s.Shows scene scene.selection m r s' := by
  rcases s.load_outcome files path with
    ⟨e, r, hprepare, hload⟩ | ⟨scene, m, b, r, hprepared, hb, hload⟩
  · obtain rfl := prepare_error hprepare
    exact .inl ⟨e, hload⟩
  · obtain ⟨s', hinstall, hshows⟩ := s.install_ok files r hprepared.selected hb
    exact .inr ⟨scene, m, r, s', hload.trans hinstall, hprepared, hshows⟩

/-- Reading again fails without effect, or shows a prepared scene, after images were dropped, and
then releases the programs that the scene does not hold. -/
theorem reload_cases (s : Session Headless) (files : FileTree) :
    (∃ e, s.reload files = (.error e, s)) ∨
      ∃ (scene : Scene) (m : Material) (r : Renderer Headless) (paths : List Path)
        (s' : Session Headless), s.Prepared files scene m r ∧
        s.Shows scene scene.selection m (paths.foldl (·.invalidate files ·) r) s' ∧
        s.reload files =
          (.ok (), { s' with renderer := s'.renderer.purgePrograms scene.programs }) := by
  rcases s.reload_outcome files with
    ⟨e, r, hr, hreload⟩ | ⟨old, scene, m, b, r, -, hprepared, hb, hreload⟩
  · obtain rfl : r = s.renderer := by
      rcases hr with hr | ⟨path, position, hprepare⟩
      · exact hr
      · exact prepare_error hprepare
    exact .inl ⟨e, hreload⟩
  · obtain ⟨s', hinstall, hshows⟩ := s.install_ok files
      ((old.materials.flatMap Material.imageFiles).foldl (·.invalidate files ·) r)
      hprepared.selected hb
    exact .inr ⟨scene, m, r, _, s', hprepared, hshows, hreload s' hinstall⟩

/-- Selecting fails without effect, or shows the scene with the material at the position. -/
theorem select_cases (s : Session Headless) (files : FileTree) (position : Nat) :
    (∃ e, s.select files position = (.error e, s)) ∨
      ∃ scene m r s', s.scene? = some scene ∧
        s.Readied files scene (position % scene.materials.length) m r ∧
        s.Shows scene (position % scene.materials.length) m r s' ∧
        s.select files position = (.ok (), s') := by
  rcases s.select_outcome files position with
    ⟨e, r, hr, hselect⟩ | ⟨scene, m, b, r, hscene, hreadied, -, hb, hselect⟩
  · obtain rfl : r = s.renderer := by
      rcases hr with hr | ⟨old, scene, e', hgenerate⟩
      · exact hr
      · exact Material.generate_error hgenerate
    exact .inl ⟨e, hselect⟩
  · obtain ⟨m', r', hactivate, hshows⟩ := s.activate_shows files scene _ ⟨b, hb⟩ r
    exact .inr ⟨scene, m, r, _, hscene, hreadied, hshows, hselect m' r' hactivate⟩

/-- Selecting the next or the previous material is a selection, or fails without effect. -/
theorem selectNext_cases (s : Session Headless) (files : FileTree) :
    s.selectNext files = (.error .noSelection, s) ∨
      ∃ position, s.selectNext files = s.select files position := by
  unfold selectNext
  cases s.scene? with
  | none => exact .inl rfl
  | some scene => exact .inr ⟨_, rfl⟩

theorem selectPrevious_cases (s : Session Headless) (files : FileTree) :
    s.selectPrevious files = (.error .noSelection, s) ∨
      ∃ position, s.selectPrevious files = s.select files position := by
  unfold selectPrevious
  cases s.scene? with
  | none => exact .inl rfl
  | some scene => exact .inr ⟨_, rfl⟩

end Session

end MaterialViewer
