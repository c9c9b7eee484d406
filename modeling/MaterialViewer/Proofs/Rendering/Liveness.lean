import MaterialViewer.Proofs.Device.ExactPrograms
import MaterialViewer.Proofs.Device.Live
import MaterialViewer.Proofs.Image.Cache
import MaterialViewer.Proofs.Rendering.Material
import MaterialViewer.Proofs.Rendering.Script

/-!
# Proofs: what is live behind a renderer

A renderer keeps its device in good order: every command so far was about programs and textures that
were live at that time, and what is live is what its caches hold. Each thing that a renderer can do
is looked at once. A binding only ever has the renderer work on its own program, so what it does is
in order as long as the program is in the cache.
-/

namespace MaterialViewer

/-- The command is about the given programs and textures, and gives nothing up. -/
structure Command.Within (programs : List ProgramId) (textures : List TextureId) (c : Command) :
    Prop where
  program : ∀ p, c.program? = some p → p ∈ programs
  texture : ∀ t, c.texture? = some t → t ∈ textures
  keepsProgram : Use.lostProgram? (.performed c) = none
  keepsTexture : Use.lostTexture? (.performed c) = none

namespace Renderer

variable {δ : Type} [Device δ] {r r' : Renderer (Traced δ)} {files : FileTree}

/-- Every command was about what was live at that time, and the caches account for what came
about. -/
structure Proper (r : Renderer (Traced δ)) : Prop where
  uses : Use.Proper r.device.uses
  images : r.images.Balanced r.device
  programs : (ProgramSession.mk r.programs [] r.device).Orderly

omit [Device δ] in
theorem proper_start (device : δ) : ({ device := .start device } : Renderer (Traced δ)).Proper where
  uses := Use.proper_nil
  images := ⟨List.nodup_nil, .refl _⟩
  programs := ProgramSession.orderly_start _ device

/-- The programs in the cache. -/
def owned (r : Renderer (Traced δ)) : List ProgramId := r.programs.programs.map (·.id)

omit [Device δ] in
/-- The live programs are those in the cache. -/
theorem Proper.perm_programs (h : r.Proper) : (Use.livePrograms r.device.uses).Perm r.owned :=
  h.programs.accounts.perm_owned h.uses.programs

omit [Device δ] in
/-- The live textures are those in the cache. -/
theorem Proper.perm_textures (h : r.Proper) :
    (Use.liveTextures r.device.uses).Perm r.images.textures :=
  h.images.accounts.perm_owned h.uses.textures

omit [Device δ] in
/-- Uses by which no program comes about and none is given up leave the programs accounted for. -/
theorem orderly_of_eq {c : ProgramCache} {handles : List CompiledProgram} {d d' : Traced δ}
    (h : (ProgramSession.mk c handles d).Orderly) (hnew : d'.newPrograms = d.newPrograms)
    (hlost : d'.lostPrograms = d.lostPrograms) : (ProgramSession.mk c [] d').Orderly := by
  refine ⟨h.filed, nofun, ?_⟩
  show Accounted d'.newPrograms d'.lostPrograms _
  rw [hnew, hlost]
  exact h.accounts

omit [Device δ] in
theorem balanced_of_eq {c : ImageCache} {d d' : Traced δ} (h : c.Balanced d)
    (hnew : d'.newTextures = d.newTextures) (hlost : d'.lostTextures = d.lostTextures) :
    c.Balanced d' := by
  refine ⟨h.keys, ?_⟩
  rw [hnew, hlost]
  exact h.accounts

/-- A command on the programs and textures in the caches. -/
theorem Proper.perform (h : r.Proper) {c : Command} (hc : c.Within r.owned r.images.textures) :
    (r.perform c).Proper := by
  have hlive : Use.IsOfLive r.device.uses (.performed c) := by
    refine ⟨?_, ?_⟩
    · rintro _ p ⟨⟩ hp
      exact h.perm_programs.mem_iff.2 (hc.program p hp)
    · rintro _ t ⟨⟩ ht
      exact h.perm_textures.mem_iff.2 (hc.texture t ht)
  exact ⟨h.uses.concat hlive, balanced_of_eq h.images (Use.filterMap_concat rfl _)
    (Use.filterMap_concat hc.keepsTexture _), orderly_of_eq h.programs (Use.filterMap_concat rfl _)
    (Use.filterMap_concat hc.keepsProgram _)⟩

theorem Proper.performAll (h : r.Proper) {commands : List Command}
    (hcommands : ∀ c ∈ commands, c.Within r.owned r.images.textures) :
    (commands.foldl Renderer.perform r).Proper := by
  induction commands generalizing r with
  | nil => exact h
  | cons c rest ih =>
    exact ih (h.perform (hcommands c List.mem_cons_self)) fun c' hc' =>
      hcommands c' (List.mem_cons_of_mem _ hc')

/-! ## Images -/

/-- Uploads are in order, and leave the programs. -/
theorem uploads_keep {d d' : Traced δ} (h : Driven (fun _ => False) d d') :
    d'.newPrograms = d.newPrograms ∧ d'.lostPrograms = d.lostPrograms ∧
      (Use.Proper d.uses → Use.Proper d'.uses) := by
  refine h.keeps (R := fun d d' => d'.newPrograms = d.newPrograms ∧
    d'.lostPrograms = d.lostPrograms ∧ (Use.Proper d.uses → Use.Proper d'.uses))
    ⟨rfl, rfl, id⟩ (fun _ _ hc => hc.elim) ?_
  rintro d₁ image ⟨hnew, hlost, hproper⟩
  refine ⟨(Use.filterMap_concat rfl _).trans hnew, (Use.filterMap_concat rfl _).trans hlost,
    fun hd => ?_⟩
  refine (hproper hd).append fun c hc => ?_
  cases List.mem_singleton.1 hc

/-- A renderer that only uploaded, and balanced its images. -/
theorem Proper.uploads (h : r.Proper) (hdriven : DrivenBy (fun _ => False) r r')
    (himages : r'.images.Balanced r'.device) : r'.Proper := by
  obtain ⟨hnew, hlost, huses⟩ := uploads_keep hdriven.device
  refine ⟨huses h.uses, himages, ?_⟩
  rw [hdriven.programs]
  exact orderly_of_eq h.programs hnew hlost

theorem Proper.image (h : r.Proper) (files : FileTree) (path : Path) :
    (r.image files path).2.Proper :=
  h.uploads (image_drivenBy r files path) h.images.acquire

theorem Proper.solidColor (h : r.Proper) (color : Color) : (r.solidColor color).2.Proper :=
  h.uploads (solidColor_drivenBy r color) h.images.solidColor

omit [Device δ] in
theorem texture_mem_of_entry {c : ImageCache} {key : Path} {descriptor : ImageDescriptor}
    (h : Ordered.get? key c.entries = some (.ok descriptor)) :
    descriptor.texture ∈ c.textures :=
  List.mem_append_left _ (List.mem_filterMap.2 ⟨_, Ordered.mem_of_get? h, rfl⟩)

theorem texture_mem_of_image {path : Path} {descriptor : ImageDescriptor}
    (h : (r.image files path).1 = .ok descriptor) :
    descriptor.texture ∈ (r.image files path).2.images.textures := by
  have hentry : Ordered.get? (ImageCache.key files path) (r.image files path).2.images.entries =
      some (r.image files path).1 := ImageCache.get?_acquire
  exact texture_mem_of_entry (h ▸ hentry)

theorem texture_mem_of_solidColor (color : Color) :
    (r.solidColor color).1.texture ∈ (r.solidColor color).2.images.textures := by
  refine List.mem_append_right _ (List.mem_map.2 ⟨(color, (r.solidColor color).1), ?_, rfl⟩)
  refine Ordered.mem_of_get? ?_
  show Ordered.get? color (r.images.solidColor color r.device).2.1.solids =
    some (r.images.solidColor color r.device).1
  unfold ImageCache.solidColor
  cases hknown : Ordered.get? color r.images.solids with
  | some descriptor => exact hknown
  | none => exact Ordered.get?_put_self _ _ _

/-- What is shown for an image or else a color is in the cache. -/
theorem Proper.imageOr (h : r.Proper) (files : FileTree) (path? : Option Path)
    (fallback? : Option Color) :
    (r.imageOr files path? fallback?).2.Proper ∧
      ∀ shown, (r.imageOr files path? fallback?).1 = some shown →
        shown.1.texture ∈ (r.imageOr files path? fallback?).2.images.textures := by
  have hfallback : ∀ r₁ : Renderer (Traced δ), r₁.Proper → ∀ color,
      (r₁.solidColor color).2.Proper ∧ ∀ shown : ImageDescriptor × Bool,
        some ((r₁.solidColor color).1, false) = some shown →
        shown.1.texture ∈ (r₁.solidColor color).2.images.textures := by
    refine fun r₁ hr₁ color => ⟨hr₁.solidColor color, ?_⟩
    rintro _ ⟨⟩
    exact texture_mem_of_solidColor color
  unfold Renderer.imageOr
  cases path? with
  | none =>
    cases fallback? with
    | none =>
      refine ⟨h, ?_⟩
      rintro _ ⟨⟩
    | some color => exact hfallback r h color
  | some path =>
    have himage := h.image files path
    cases hresult : (r.image files path).1 with
    | ok descriptor =>
      have hmem := texture_mem_of_image hresult
      simp only [hresult, Except.toOption]
      refine ⟨himage, ?_⟩
      rintro _ ⟨⟩
      exact hmem
    | error e =>
      simp only [hresult, Except.toOption]
      cases fallback? with
      | none =>
        refine ⟨himage, ?_⟩
        rintro _ ⟨⟩
      | some color => exact hfallback _ himage color

/-- The texture of an image that is dropped was live. -/
theorem Proper.invalidate (h : r.Proper) (files : FileTree) (path : Path) :
    (r.invalidate files path).Proper := by
  have himages : (r.images.invalidate files path r.device).1.Balanced
      (r.images.invalidate files path r.device).2 := h.images.invalidate
  show Proper { r with
    images := (r.images.invalidate files path r.device).1
    device := (r.images.invalidate files path r.device).2 }
  generalize hanswer : r.images.invalidate files path r.device = answer at himages ⊢
  unfold ImageCache.invalidate at hanswer
  obtain rfl := hanswer
  dsimp only at himages ⊢
  split at himages
  · rename_i descriptor hentry
    refine ⟨h.uses.concat ⟨nofun, ?_⟩, himages,
      orderly_of_eq h.programs (Use.filterMap_concat rfl _) (Use.filterMap_concat rfl _)⟩
    rintro _ t ⟨⟩ ⟨⟩
    exact h.perm_textures.mem_iff.2 (texture_mem_of_entry hentry)
  · exact ⟨h.uses, himages, h.programs⟩

/-! ## Programs -/

theorem Proper.program (h : r.Proper) (name : String) (source : ProgramSource) :
    (r.program name source).2.Proper ∧
      (∀ q ∈ r.programs.programs, q ∈ (r.program name source).2.programs.programs) ∧
      ∀ p, (r.program name source).1 = .ok p →
        p ∈ (r.program name source).2.programs.programs := by
  -- what was in the cache is taken for held, so that it is seen to stay
  have horderly : (ProgramSession.mk r.programs r.programs.programs r.device).Orderly :=
    ⟨h.programs.filed, fun _ hq => hq, h.programs.accounts⟩
  have hafter := horderly.acquire name source
  have hmem : ∀ q ∈ r.programs.programs ++ (r.program name source).1.toOption.toList,
      q ∈ (r.program name source).2.programs.programs := hafter.handles
  refine ⟨⟨?_, ?_, hafter.filed, nofun, hafter.accounts⟩,
    fun q hq => hmem q (List.mem_append_left _ hq), fun p hp => hmem p ?_⟩
  · rcases r.program_device name source with hdevice | hdevice
    · exact hdevice ▸ h.uses
    · rw [hdevice]
      refine h.uses.append fun c hc => ?_
      cases List.mem_singleton.1 hc
  · rcases r.program_device name source with hdevice | hdevice
    · exact hdevice ▸ h.images
    · rw [hdevice]
      exact balanced_of_eq h.images (Use.filterMap_concat rfl _) (Use.filterMap_concat rfl _)
  · rw [hp]
    exact List.mem_append_right _ (List.mem_singleton_self p)

/-- Of the programs in the cache just those are left that are held. -/
theorem Proper.purgePrograms (h : r.Proper) {handles : List CompiledProgram}
    (hhandles : ∀ p ∈ handles, p ∈ r.programs.programs) :
    (r.purgePrograms (handles.map (·.id))).Proper ∧
      ∀ p, p ∈ (r.purgePrograms (handles.map (·.id))).owned ↔ p ∈ handles.map (·.id) := by
  have horderly : (ProgramSession.mk r.programs handles r.device).Orderly :=
    ⟨h.programs.filed, hhandles, h.programs.accounts⟩
  have hafter := horderly.purge
  have hdevice : (r.purgePrograms (handles.map (·.id))).device =
      ((r.programs.unused (handles.map (·.id))).map fun p => Command.releaseProgram p.id).foldl
        Device.perform r.device := List.foldl_map.symm
  refine ⟨⟨?_, ?_, hafter.filed, nofun, hafter.accounts⟩, fun p => ?_⟩
  · rw [hdevice, Traced.foldl_perform]
    have hlive := h.perm_programs.trans (r.programs.perm_unused (handles.map (·.id)))
    have hreleased := h.uses.release hlive
    rwa [List.map_map] at hreleased ⊢
  · rw [hdevice, Traced.foldl_perform]
    refine balanced_of_eq h.images ?_ ?_
    · simp [Traced.newTextures, List.filterMap_map, Function.comp_def, Use.newTexture?]
    · simp [Traced.lostTextures, List.filterMap_map, Function.comp_def, Use.lostTexture?]
  · show p ∈ ((r.programs.filter _).programs).map (·.id) ↔ _
    rw [ProgramCache.programs_filter, List.mem_map]
    constructor
    · rintro ⟨q, hq, rfl⟩
      exact List.contains_iff_mem.1 (List.mem_filter.1 hq).2
    · intro hp
      obtain ⟨q, hq, rfl⟩ := List.mem_map.1 hp
      exact ⟨q, List.mem_filter.2 ⟨hhandles q hq, List.contains_iff_mem.2 hp⟩, rfl⟩

end Renderer

/-! ## Bindings -/

/-- The instruction works on one program only, and shows no textures but by samplers of it. -/
inductive Instruction.IsFor (p : ProgramId) : Instruction → Prop
  | command {c : Command} (h : c.Within [p] []) : IsFor p (.command c)
  | sampler (uniform : String) (unit : Nat) (path? : Option Path) (fallback? : Option Color)
      (levels? : Option String) : IsFor p (.sampler p uniform unit path? fallback? levels?)

namespace Renderer

variable {δ : Type} [Device δ] {r : Renderer (Traced δ)} {files : FileTree} {p : ProgramId}
  {i : Instruction} {script : List Instruction}

omit [Device δ] in
theorem within_bindings (hp : p ∈ r.owned) {shown : ImageDescriptor × Bool}
    (hshown : shown.1.texture ∈ r.images.textures) (uniform : String) (unit : Nat)
    (levels? : Option String) {c : Command}
    (hc : c ∈ Instruction.bindings p uniform unit levels? shown) :
    c.Within r.owned r.images.textures := by
  have huniform : ∀ name value, (Command.setUniform p name value).Within r.owned
      r.images.textures := by
    refine fun name value => ⟨?_, nofun, rfl, rfl⟩
    rintro _ ⟨⟩
    exact hp
  rcases List.mem_append.1 hc with hc | hc
  · rcases List.mem_cons.1 hc with rfl | hc
    · refine ⟨nofun, ?_, rfl, rfl⟩
      rintro _ ⟨⟩
      exact hshown
    · obtain rfl := List.mem_singleton.1 hc
      exact huniform _ _
  · obtain ⟨name, -, rfl⟩ := List.mem_map.1 hc
    exact huniform _ _

/-- An instruction for a program in the cache. -/
theorem Proper.run (h : r.Proper) (hp : p ∈ r.owned) (hi : i.IsFor p) :
    (i.run files r).Proper ∧ (i.run files r).programs = r.programs := by
  cases hi with
  | command hc =>
    refine ⟨h.perform ⟨fun q hq => ?_, fun t ht => ?_, hc.keepsProgram, hc.keepsTexture⟩, rfl⟩
    · exact List.mem_singleton.1 (hc.program q hq) ▸ hp
    · cases hc.texture t ht
  | sampler uniform unit path? fallback? levels? =>
    obtain ⟨himage, hmem⟩ := h.imageOr files path? fallback?
    have hprograms : (r.imageOr files path? fallback?).2.programs = r.programs :=
      (imageOr_drivenBy (P := fun _ => True) r files path? fallback?).programs
    rw [Instruction.run_sampler]
    refine ⟨himage.performAll fun c hc => ?_, by rw [foldl_perform_eq]; exact hprograms⟩
    cases hshown : (r.imageOr files path? fallback?).1 with
    | none =>
      rw [hshown] at hc
      cases hc
    | some shown =>
      rw [hshown] at hc
      refine within_bindings ?_ (hmem shown hshown) uniform unit levels? hc
      unfold owned
      rwa [hprograms]

theorem Proper.runAll (h : r.Proper) (hp : p ∈ r.owned) (hscript : ∀ i ∈ script, i.IsFor p) :
    (Instruction.runAll files script r).Proper ∧
      (Instruction.runAll files script r).programs = r.programs := by
  induction script generalizing r with
  | nil => exact ⟨h, rfl⟩
  | cons i rest ih =>
    obtain ⟨hrun, hprograms⟩ : (i.run files r).Proper ∧ (i.run files r).programs = r.programs :=
      h.run hp (hscript i List.mem_cons_self)
    have hp' : p ∈ (i.run files r).owned := by
      unfold owned
      rwa [hprograms]
    obtain ⟨hrest, hprograms'⟩ := ih hrun hp' fun j hj => hscript j (List.mem_cons_of_mem _ hj)
    exact ⟨hrest, hprograms'.trans hprograms⟩

end Renderer

namespace ShaderBinding

variable (b : ShaderBinding)

/-- All instructions of the script are for the program of the binding. -/
def IsScript (script : List Instruction) : Prop := ∀ i ∈ script, i.IsFor b.program.id

variable {b} {b' : ShaderBinding} {script script' : List Instruction}

theorem IsScript.append (h : b.IsScript script) (h' : b.IsScript script') :
    b.IsScript (script ++ script') := fun i hi =>
  (List.mem_append.1 hi).elim (h i) (h' i)

theorem isScript_flatMap {α : Type} {f : α → List Instruction} {xs : List α}
    (h : ∀ x ∈ xs, b.IsScript (f x)) : b.IsScript (xs.flatMap f) := fun i hi =>
  have ⟨x, hx, hmem⟩ := List.mem_flatMap.1 hi
  h x hx i hmem

theorem IsScript.alike (h : b'.IsScript script) (hb : b.Alike b') : b.IsScript script :=
  fun i hi => hb.program ▸ h i hi

/-- A command on the program of the binding. -/
theorem isFor_of_program {c : Command} (hprogram : c.program? = some b.program.id)
    (htexture : c.texture? = none) (hp : Use.lostProgram? (.performed c) = none)
    (ht : Use.lostTexture? (.performed c) = none) :
    (Instruction.command c).IsFor b.program.id := by
  refine .command ⟨fun p h => ?_, fun t h => ?_, hp, ht⟩
  · exact List.mem_singleton.2 (Option.some.inj (h.symm.trans hprogram))
  · cases htexture.symm.trans h

theorem isScript_set (name : String) (value : UniformValue) :
    b.IsScript (b.setScript name value) := by
  unfold setScript
  split
  · exact fun i hi => List.mem_singleton.1 hi ▸ isFor_of_program rfl rfl rfl rfl
  · exact nofun

theorem isScript_texture (uniform : String) (path? : Option Path) (fallback? : Option Color)
    (levels? : Option String) : b.IsScript (b.textureScript uniform path? fallback? levels?) := by
  intro i hi
  obtain ⟨unit, -, rfl⟩ := List.mem_map.1 hi
  exact .sampler ..

theorem isScript_use : b.IsScript b.useScript := by
  intro i hi
  rcases List.mem_cons.1 hi with rfl | hi
  · exact isFor_of_program rfl rfl rfl rfl
  · obtain rfl := List.mem_singleton.1 hi
    exact .command ⟨nofun, nofun, rfl, rfl⟩

theorem isScript_view (world view projection : Matrix4) :
    b.IsScript (b.viewScript world view projection) :=
  (((isScript_set _ _).append (isScript_set _ _)).append (isScript_set _ _)).append
    (isScript_set _ _)

theorem isScript_images (tile? : Option String) (fallback? : Option Color) :
    b.IsScript (b.imagesScript tile? fallback?) :=
  isScript_flatMap fun _ _ => isScript_texture _ _ _ _

theorem isScript_environment (files : FileTree) (search : SearchPath)
    (environment : EnvironmentLighting) :
    b.Alike (b.environmentScript files search environment).1 ∧
      b.IsScript (b.environmentScript files search environment).2 := by
  have hfirst : b.Alike _ := (b.lookUpMap_finds files search environment.indirect
    Uniforms.envRadiance environment.radiance).alike
  have hsecond := hfirst.trans (lookUpMap_finds _ files search environment.indirect
    Uniforms.envIrradiance environment.irradiance).alike
  exact ⟨hsecond, ((isScript_set _ _).append ((isScript_texture _ _ _ _).alike hfirst)).append
    ((isScript_texture _ _ _ _).alike hsecond)⟩

theorem isScript_rig (rig : LightRig) (direct : Bool) : b.IsScript (b.rigScript rig direct) := by
  refine (isScript_set _ _).append (isScript_flatMap fun light _ i hi => ?_)
  obtain ⟨field, -, rfl⟩ := List.mem_map.1 hi
  exact isFor_of_program rfl rfl rfl rfl

theorem isScript_lights (files : FileTree) (search : SearchPath) (rig : LightRig)
    (environment : EnvironmentLighting) :
    b.Alike (b.lightsScript files search rig environment).1 ∧
      b.IsScript (b.lightsScript files search rig environment).2 := by
  obtain ⟨halike, hscript⟩ := isScript_environment (b := b) files search environment
  exact ⟨halike, hscript.append ((isScript_rig rig environment.direct).alike halike)⟩

theorem isScript_mesh (mesh : Mesh) : b.IsScript (b.meshScript mesh) := by
  intro i hi
  obtain ⟨s, -, rfl⟩ := List.mem_map.1 hi
  exact isFor_of_program rfl rfl rfl rfl

theorem isScript_partition (p : MeshPartition) : b.IsScript (b.partitionScript p) := by
  intro i hi
  rcases List.mem_cons.1 hi with rfl | hi
  · exact isFor_of_program rfl rfl rfl rfl
  · obtain rfl := List.mem_singleton.1 hi
    exact isFor_of_program rfl rfl rfl rfl

end ShaderBinding

end MaterialViewer
