import Mathlib.Data.List.Forall2
import MaterialViewer.Proofs.Document.Reading
import MaterialViewer.Proofs.Shader.Parts
import MaterialViewer.Proofs.Viewer.Steps

/-!
# Proofs: reachable sessions

What holds of every session over a headless device that comes about by operations, whatever the
files are at each of them. A session with a scene shows it: there is a material for each subset, the
selected one is bound, and its program is live and current on the device. So a frame can be drawn.

The invariant that carries this says more of the programs: all programs in the cache are live, and
so are the programs of all materials of the scene, also of those that are not selected.
-/

namespace MaterialViewer

/-- The session comes about by operations from one that was started. -/
inductive Session.Reachable : Session Headless → Prop
  | start {settings : Settings} {device : Headless} {files : FileTree} {s : Session Headless}
      (h : Session.start settings device files = .ok s) : Reachable s
  | perform {s : Session Headless} (h : Reachable s) (files : FileTree) (op : Session.Operation) :
      Reachable (s.perform files op).2

/-- The scene is shown on the device: there is a material for each subset, and the selected one is
bound and current. -/
structure Scene.IsShown (scene : Scene) (d : Headless) : Prop where
  ne_nil : scene.materials ≠ []
  materials : List.Forall₂ Material.IsFor scene.materials scene.loaded.subsets
  selection : scene.selection < scene.materials.length
  bound : ∃ m b, scene.materials[scene.selection]? = some m ∧ m.state = .bound b ∧
    d.current? = some b.program.id ∧ d.IsLive b.program.id

namespace Session

open Renderer (DrivenBy)

/-- The programs of the materials are live, and the selected material is bound and current. -/
structure SceneSound (scene : Scene) (r : Renderer Headless) : Prop where
  materials : List.Forall₂ Material.IsFor scene.materials scene.loaded.subsets
  live : ∀ m ∈ scene.materials, ∀ b, m.binding? = some b → r.device.IsLive b.program.id
  bound : ∃ m b, scene.materials[scene.selection]? = some m ∧ m.state = .bound b ∧
    r.device.current? = some b.program.id

/-- The invariant of sessions. -/
structure Sound (s : Session Headless) : Prop where
  programs : s.renderer.AllLive
  scene : ∀ scene, s.scene? = some scene → SceneSound scene s.renderer

variable {s s' : Session Headless} {files : FileTree} {scene : Scene} {m : Material}
  {r : Renderer Headless} {i : Nat}

theorem SceneSound.isShown (h : SceneSound scene r) : scene.IsShown r.device := by
  obtain ⟨m, b, hm, hstate, hcurrent⟩ := h.bound
  have hlt := (List.getElem?_eq_some_iff.1 hm).1
  have hmem : m ∈ scene.materials := List.mem_of_getElem? hm
  have hbinding : m.binding? = some b := by
    unfold Material.binding?
    rw [hstate]
  refine ⟨List.ne_nil_of_mem hmem, h.materials, hlt, m, b, hm, hstate, hcurrent, ?_⟩
  exact h.live m hmem b hbinding

theorem forall₂_set {α β : Type} {R : α → β → Prop} {xs : List α} {ys : List β} {x y : α} {i : Nat}
    (h : List.Forall₂ R xs ys) (hx : xs[i]? = some x) (hxy : ∀ z, R x z → R y z) :
    List.Forall₂ R (xs.set i y) ys := by
  induction h generalizing i with
  | nil => exact .nil
  | cons hhead htail ih =>
    cases i with
    | zero =>
      obtain rfl := Option.some.inj hx
      exact .cons (hxy _ hhead) htail
    | succ i => exact .cons hhead (ih hx)

/-- What a material `m` and the scene need so that `m` can be shown at the position `i`. -/
structure Ready (scene : Scene) (i : Nat) (m : Material) (r : Renderer Headless) : Prop where
  programs : r.AllLive
  materials : List.Forall₂ Material.IsFor scene.materials scene.loaded.subsets
  replaces : ∃ old, scene.materials[i]? = some old ∧ ∀ subset, old.IsFor subset → m.IsFor subset
  live : ∀ m' ∈ scene.materials, ∀ b, m'.binding? = some b → r.device.IsLive b.program.id
  own : ∀ b, m.binding? = some b → r.device.IsLive b.program.id

/-- Showing a material ends in a sound session. -/
theorem Shows.sound (h : s.Shows scene i m r s') (hready : Ready scene i m r) : s'.Sound := by
  obtain ⟨b, b', r', hb, halike, hdriven, rfl⟩ := h
  obtain ⟨hcurrent, hlive, hall⟩ := Material.drawn_current hdriven
  obtain ⟨old, hold, hfor⟩ := hready.replaces
  have hlt := (List.getElem?_eq_some_iff.1 hold).1
  refine ⟨hall hready.programs, ?_⟩
  intro shown hshown
  obtain rfl := Option.some.inj hshown
  refine ⟨forall₂_set hready.materials hold hfor, ?_, ?_⟩
  · intro m' hm' b₁ hb₁
    refine hlive _ ?_
    rcases List.mem_or_eq_of_mem_set hm' with hm' | rfl
    · exact hready.live m' hm' b₁ hb₁
    · obtain rfl := Option.some.inj hb₁
      rw [halike.program]
      exact hready.own b hb
  · refine ⟨m.withBound b', b', List.getElem?_set_self hlt, rfl, ?_⟩
    rw [hcurrent, halike.program]

/-- The scene that is shown holds no other programs than the scene before. -/
theorem Shows.programs (h : s.Shows scene i m r s') (hmem : m ∈ scene.materials) :
    ∀ shown, s'.scene? = some shown → ∀ m' ∈ shown.materials, ∀ b, m'.binding? = some b →
      b.program.id ∈ scene.programs := by
  have hprograms : ∀ m' ∈ scene.materials, ∀ b, m'.binding? = some b →
      b.program.id ∈ scene.programs := by
    intro m' hm' b hb
    refine List.mem_filterMap.2 ⟨m', hm', ?_⟩
    rw [Material.program?_of_binding? hb]
    rfl
  obtain ⟨b, b', r', hb, halike, -, rfl⟩ := h
  intro shown hshown m' hm' b₁ hb₁
  obtain rfl := Option.some.inj hshown
  rcases List.mem_or_eq_of_mem_set hm' with hm' | rfl
  · exact hprograms m' hm' b₁ hb₁
  · obtain rfl := Option.some.inj hb₁
    rw [halike.program]
    exact hprograms m hmem b hb

/-! ## Getting ready -/

theorem isFor_generate {g : ShaderGenerator} {d : Document} {options : GeneratorOptions}
    {m' : Material} {r' : Renderer Headless}
    (h : m.generate g d files options r = (.ok m', r')) (subset : MaterialSubset)
    (hfor : m.IsFor subset) : m'.IsFor subset := by
  obtain ⟨shader, program, rfl, -⟩ := Material.generate_ok h
  exact hfor

/-- A generated shader comes with a live program, and what was live stays live. -/
theorem generate_live {g : ShaderGenerator} {d : Document} {options : GeneratorOptions}
    {m' : Material} {r' : Renderer Headless} (hr : r.AllLive)
    (h : m.generate g d files options r = (.ok m', r')) :
    r'.AllLive ∧ Headless.Steady r.device r'.device ∧
      ∀ b, m'.binding? = some b → r'.device.IsLive b.program.id := by
  obtain ⟨shader, program, rfl, -, hprogram⟩ := Material.generate_ok h
  obtain ⟨hall, hsteady, hlive⟩ := Renderer.program_allLive hr hprogram
  refine ⟨hall, hsteady, fun b hb => ?_⟩
  obtain rfl := Option.some.inj hb
  exact hlive

theorem Prepared.ready (h : s.Prepared files scene m r) (hs : s.Sound) :
    Ready scene scene.selection m r := by
  obtain ⟨blank, hblank, hm⟩ := h.generated
  obtain ⟨hall, -, hown⟩ := generate_live hs.programs hm
  have hlt := (List.getElem?_eq_some_iff.1 hblank).1
  have hblanks : List.Forall₂ Material.IsFor (scene.loaded.subsets.map Material.ofSubset)
      scene.loaded.subsets := by
    rw [List.forall₂_map_left_iff]
    exact List.forall₂_same.2 fun subset _ => Material.isFor_ofSubset subset
  refine ⟨hall, ?_, ⟨m, h.selected, fun _ hfor => hfor⟩, ?_, hown⟩
  · rw [h.materials]
    exact forall₂_set hblanks hblank (isFor_generate hm)
  · intro m' hm' b hb
    rw [h.materials] at hm'
    rcases List.mem_or_eq_of_mem_set hm' with hm' | rfl
    · -- the other materials have no shader yet
      obtain ⟨subset, -, rfl⟩ := List.mem_map.1 hm'
      cases hb
    · exact hown b hb

theorem Readied.ready (h : s.Readied files scene i m r) (hs : s.Sound)
    (hscene : s.scene? = some scene) : Ready scene i m r := by
  have hsound := hs.scene scene hscene
  obtain ⟨old, hold, ⟨rfl, rfl, -⟩ | hm⟩ := h
  · refine ⟨hs.programs, hsound.materials, ⟨m, hold, fun _ hfor => hfor⟩, hsound.live, ?_⟩
    exact hsound.live m (List.mem_of_getElem? hold)
  · obtain ⟨hall, hsteady, hown⟩ := generate_live hs.programs hm
    refine ⟨hall, hsound.materials, ⟨old, hold, isFor_generate hm⟩, ?_, hown⟩
    exact fun m' hm' b hb => hsteady.live _ (hsound.live m' hm' b hb)

theorem Ready.drivenBy {P : Command → Prop} {r' : Renderer Headless} (h : Ready scene i m r)
    (hdriven : DrivenBy P r r') (hP : ∀ c, P c → c.IsQuiet) : Ready scene i m r' := by
  have hsteady := hdriven.steady hP
  refine ⟨h.programs.drivenBy hdriven hP, h.materials, h.replaces, ?_, ?_⟩
  · exact fun m' hm' b hb => hsteady.live _ (h.live m' hm' b hb)
  · exact fun b hb => hsteady.live _ (h.own b hb)

/-! ## Every operation keeps the invariant -/

theorem invalidate_quiet (r : Renderer Headless) (files : FileTree) (path : Path) :
    DrivenBy Command.IsQuiet r (r.invalidate files path) :=
  r.invalidate_drivenBy files path fun _ => trivial

theorem Sound.drivenBy {r' : Renderer Headless} (hs : s.Sound)
    (hdriven : DrivenBy Command.IsQuiet s.renderer r') : Sound { s with renderer := r' } := by
  have hsteady := hdriven.steady fun _ hc => hc
  refine ⟨hs.programs.drivenBy hdriven fun _ hc => hc, fun scene hscene => ?_⟩
  obtain ⟨hmaterials, hlive, m, b, hm, hstate, hcurrent⟩ := hs.scene scene hscene
  refine ⟨hmaterials, fun m' hm' b' hb' => hsteady.live _ (hlive m' hm' b' hb'), m, b, hm, hstate, ?_⟩
  exact hsteady.current.trans hcurrent

/-- Releasing programs that the scene does not hold keeps the invariant. -/
theorem Sound.purge (hs : s.Sound) {held : List ProgramId}
    (hheld : ∀ shown, s.scene? = some shown → ∀ m ∈ shown.materials, ∀ b,
      m.binding? = some b → b.program.id ∈ held) :
    Sound { s with renderer := s.renderer.purgePrograms held } := by
  obtain ⟨hall, hlive, hcurrent⟩ := ProgramCache.AllLive.purge hs.programs held
  refine ⟨hall, fun scene hscene => ?_⟩
  obtain ⟨hmaterials, hmlive, m, b, hm, hstate, hmcurrent⟩ := hs.scene scene hscene
  have hbinding : m.binding? = some b := by
    unfold Material.binding?
    rw [hstate]
  refine ⟨hmaterials, fun m' hm' b' hb' => ?_, m, b, hm, hstate, ?_⟩
  · exact hlive _ (hheld scene hscene m' hm' b' hb') (hmlive m' hm' b' hb')
  · exact hcurrent _ (hheld scene hscene m (List.mem_of_getElem? hm) b hbinding) hmcurrent

theorem Sound.load (hs : s.Sound) (files : FileTree) (path : Path) :
    (s.load files path).2.Sound := by
  rcases s.load_cases files path with ⟨e, hload⟩ | ⟨scene, m, r, s', hload, hprepared, hshows⟩
  · rw [hload]
    exact hs
  · rw [hload]
    exact hshows.sound (hprepared.ready hs)

theorem Sound.reload (hs : s.Sound) (files : FileTree) : (s.reload files).2.Sound := by
  rcases s.reload_cases files with
    ⟨e, hreload⟩ | ⟨scene, m, r, paths, s', hprepared, hshows, hreload⟩
  · rw [hreload]
    exact hs
  · rw [hreload]
    have hdropped : DrivenBy Command.IsQuiet r (paths.foldl (·.invalidate files ·) r) :=
      Renderer.foldl_drivenBy paths (fun path _ r => invalidate_quiet r files path) r
    have hready := (hprepared.ready hs).drivenBy hdropped fun _ hc => hc
    have hmem : m ∈ scene.materials := List.mem_of_getElem? hprepared.selected
    exact (hshows.sound hready).purge (hshows.programs hmem)

theorem Sound.select (hs : s.Sound) (files : FileTree) (position : Nat) :
    (s.select files position).2.Sound := by
  rcases s.select_cases files position with
    ⟨e, hselect⟩ | ⟨scene, m, r, s', hscene, hreadied, hshows, hselect⟩
  · rw [hselect]
    exact hs
  · rw [hselect]
    exact hshows.sound (hreadied.ready hs hscene)

/-- In a sound session a frame can be drawn. -/
theorem Sound.draw (hs : s.Sound) (files : FileTree) :
    ∃ s', s.draw files = (.ok (), s') ∧ s'.Sound := by
  cases hscene : s.scene? with
  | none =>
    refine ⟨s, ?_, hs⟩
    unfold Session.draw
    rw [hscene]
  | some scene =>
    have hsound := hs.scene scene hscene
    obtain ⟨m, b, hm, hstate, -⟩ := hsound.bound
    have hbinding : m.binding? = some b := by
      unfold Material.binding?
      rw [hstate]
    obtain ⟨s', hdraw, hshows⟩ := s.draw_ok files hscene hm hbinding
    have hreadied : s.Readied files scene scene.selection m s.renderer :=
      ⟨m, hm, .inl ⟨rfl, rfl, b, hbinding⟩⟩
    exact ⟨s', hdraw, hshows.sound (hreadied.ready hs hscene)⟩

theorem Sound.handleEvent (hs : s.Sound) (files : FileTree) (event : FileEvent) :
    (s.handleEvent files event).2.Sound := by
  rcases s.handleEvent_cases files event with hevent | hevent | ⟨path, hevent⟩
  · rw [hevent]
    exact hs.reload files
  · rw [hevent]
    exact hs
  · rw [hevent]
    exact hs.drivenBy (invalidate_quiet s.renderer files path)

theorem Sound.perform (hs : s.Sound) (files : FileTree) (op : Operation) :
    (s.perform files op).2.Sound := by
  cases op with
  | load path => exact hs.load files path
  | reload => exact hs.reload files
  | select position => exact hs.select files position
  | selectNext =>
    show (s.selectNext files).2.Sound
    rcases s.selectNext_cases files with hnext | ⟨position, hnext⟩
    · rw [hnext]
      exact hs
    · rw [hnext]
      exact hs.select files position
  | selectPrevious =>
    show (s.selectPrevious files).2.Sound
    rcases s.selectPrevious_cases files with hprevious | ⟨position, hprevious⟩
    · rw [hprevious]
      exact hs
    · rw [hprevious]
      exact hs.select files position
  | draw =>
    obtain ⟨s', hdraw, hs'⟩ := hs.draw files
    show (s.draw files).2.Sound
    rw [hdraw]
    exact hs'
  | saveShaders => exact hs
  | event event => exact hs.handleEvent files event

theorem Reachable.sound (h : Reachable s) : s.Sound := by
  induction h with
  | start h =>
    unfold Session.start at h
    split at h
    · cases h
    · obtain rfl := Except.ok.inj h
      refine ⟨fun program hprogram => ?_, fun scene hscene => ?_⟩
      · cases hprogram
      · cases hscene
  | perform _ files op ih => exact ih.perform files op

/-- A reachable session shows its scene, and can draw a frame. -/
theorem Reachable.shown (h : Reachable s) :
    (∀ scene, s.scene? = some scene → scene.IsShown s.renderer.device) ∧
      ∀ files, (s.draw files).1 = .ok () := by
  refine ⟨fun scene hscene => (h.sound.scene scene hscene).isShown, fun files => ?_⟩
  obtain ⟨s', hdraw, -⟩ := h.sound.draw files
  rw [hdraw]

/-! ## A document that is shown -/

/-- On a headless device a material gets every shader that can be generated for it. -/
theorem generate_total {g : ShaderGenerator} {d : Document} {options : GeneratorOptions}
    {shader : GeneratedShader} (h : g.generate d files m.element
      { options with transparency := Transparency.isTransparent d m.element } = .ok shader)
    (r : Renderer Headless) : ∃ m' r', m.generate g d files options r = (.ok m', r') := by
  unfold Material.generate
  dsimp only
  rw [h]
  dsimp only
  obtain ⟨program, r', hprogram⟩ :=
    r.exists_program shader.name _ (isOk_compile_generate h r.device shader.name)
  rw [hprogram]
  exact ⟨_, _, rfl⟩

/-- A document that can be read and has something to draw for which there is a shader is shown. -/
theorem load_ok {path : Path} {d : Document} {loaded : LoadedDocument} {subset : MaterialSubset}
    {rest : List MaterialSubset} {shader : GeneratedShader}
    (hread : Document.ofFile files { searchPath := s.settings.searchPath } path = .ok d)
    (hloaded : d.merge s.library s.settings.modifiers (some s.settings.generator.target) = loaded)
    (hsubsets : loaded.subsets = subset :: rest)
    (hshader : ShaderGenerator.generate { lights := (LightRig.ofDocument loaded.document).kinds }
      loaded.document files subset.element.path
        { s.options with
          transparency := Transparency.isTransparent loaded.document subset.element.path } =
      .ok shader) :
    ∃ scene s', s.load files path = (.ok (), s') ∧ s'.scene? = some scene := by
  obtain ⟨m, r, hm⟩ := generate_total (m := .ofSubset subset) hshader s.renderer
  have hprepare : ∃ scene r, s.prepare files path 0 = (.ok scene, r) := by
    unfold prepare
    rw [hread]
    dsimp only
    rw [hloaded, hsubsets, List.map_cons]
    simp only [List.length_cons, Nat.zero_lt_succ, if_true, List.getElem?_cons_zero]
    rw [hm]
    exact ⟨_, _, rfl⟩
  obtain ⟨scene, r', hprepare⟩ := hprepare
  obtain ⟨m', hprepared⟩ := prepare_ok hprepare
  obtain ⟨b, hb⟩ := hprepared.exists_binding
  obtain ⟨s', hinstall, hshows⟩ := s.install_ok files r' hprepared.selected hb
  have hload : s.load files path = (.ok (), s') := by
    unfold load
    rw [hprepare]
    exact hinstall
  obtain ⟨b, b', r₂, -, -, -, rfl⟩ := hshows
  exact ⟨_, _, hload, rfl⟩

/-- The text of a document with one material, whose shader is a number. -/
def sampleText : List Char :=
  ["<materialx>", "<nodedef name=\"N\" node=\"s\" ", "type=\"float\"/>",
    "<implementation name=\"I\" ", "nodedef=\"N\" language=\"genglsl\" ", "sourcecode=\"1.0\"/>",
    "<material name=\"A\">", "<shaderref name=\"r\" node=\"s\"/>", "</material></materialx>"
  ].flatMap String.toList

/-- The document with this text. -/
def sampleDocument : Document where
  root := { category := "materialx", name := "", children := [
    { category := "nodedef", name := "N", attributes := [("node", "s"), ("type", "float")] },
    { category := "implementation", name := "I"
      attributes := [("nodedef", "N"), ("language", "genglsl"), ("sourcecode", "1.0")] },
    { category := "material", name := "A", children := [
      { category := "shaderref", name := "r", attributes := [("node", "s")] }] }] }
  source? := some ⟨"a.mtlx"⟩

/-- The files with nothing but this document. -/
def sampleFiles : FileTree :=
  (FileTree.empty []).insertFile ["a.mtlx"] (String.ofList sampleText).toUTF8

set_option maxRecDepth 100000 in
theorem ofEvents_sampleText : Element.ofEvents (Markup.eventsFrom [] sampleText) =
    .ok (sampleDocument.root, []) := by cbv

theorem ofFile_sample (options : Document.ReadOptions) :
    Document.ofFile sampleFiles options ⟨"a.mtlx"⟩ = .ok sampleDocument := by
  have hresolve : sampleFiles.resolve ⟨"a.mtlx"⟩ = some ["a.mtlx"] := by decide +kernel
  have hstart : sampleText.head? ≠ some '\uFEFF' := by decide +kernel
  refine Document.ofFile_ok (FileTree.readText?_insertFile hresolve) ?_ options
  rw [Markup.events_ofList hstart]
  exact ofEvents_sampleText

/-- A session that was started without libraries. -/
def sampleSession : Session Headless where
  settings := { libraryFolders := [] }
  options := {}
  library := .empty
  renderer := { device := {} }

theorem load_sample :
    ∃ scene s', sampleSession.load sampleFiles ⟨"a.mtlx"⟩ = (.ok (), s') ∧
      s'.scene? = some scene := by
  have hsubsets : (sampleDocument.merge .empty {} (some ⟨"genglsl", "glsl"⟩)).subsets =
      [⟨⟨"A/r", .shaderRef⟩, none⟩] := by decide +kernel
  let d : Document := (sampleDocument.merge .empty {} (some ⟨"genglsl", "glsl"⟩)).document
  have hshader : (ShaderGenerator.generate { lights := (LightRig.ofDocument d).kinds } d sampleFiles
      "A/r" { transparency := Transparency.isTransparent d "A/r" }).toOption.isSome = true := by
    decide +kernel
  obtain ⟨shader, hshader⟩ := Option.isSome_iff_exists.1 hshader
  obtain ⟨shader, hgenerate, -⟩ := Graph.Sample.exists_ok_of_map (f := id) (y := shader)
    (by rw [Option.map_id]; exact hshader)
  exact load_ok (ofFile_sample _) rfl hsubsets hgenerate

/-- The session in which this document was loaded shows it. -/
theorem shown_sample :
    ∃ s scene, Reachable s ∧ s.scene? = some scene ∧ scene.IsShown s.renderer.device ∧
      ∀ files, (s.draw files).1 = .ok () := by
  have hstart : Session.start sampleSession.settings {} sampleFiles = .ok sampleSession := rfl
  obtain ⟨scene, s', hload, hscene⟩ := load_sample
  have hreachable : Reachable s' := by
    have hperform := (Reachable.start hstart).perform sampleFiles (.load ⟨"a.mtlx"⟩)
    change Reachable (sampleSession.load sampleFiles ⟨"a.mtlx"⟩).2 at hperform
    rwa [hload] at hperform
  obtain ⟨hshown, hdraw⟩ := hreachable.shown
  exact ⟨s', scene, hreachable, hscene, hshown scene hscene, hdraw⟩

end Session

end MaterialViewer
