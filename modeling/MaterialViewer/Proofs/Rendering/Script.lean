import MaterialViewer.Proofs.Rendering.Drawing

/-!
# Proofs: scripts

What an operation of a binding has the renderer do does not depend on the renderer: it is a list of
instructions, told from the shader, the files that were looked up and the arguments alone. Only what
an instruction comes to depends on the renderer, where an image may be had or not. Each operation is
the run of its script, so whatever holds of every instruction holds of all operations.
-/

namespace MaterialViewer

/-- One thing that a binding has its renderer do. -/
inductive Instruction
  /-- Carry out a command. -/
  | command (c : Command)
  /-- Bind an image, or else a color, to a sampler of a program on a unit. If it is an image, the
  number of its mip levels is written to a uniform, if one is given. -/
  | sampler (program : ProgramId) (uniform : String) (unit : Nat) (path? : Option Path)
      (fallback? : Option Color) (levels? : Option String)

theorem Renderer.foldl_perform_eq {δ : Type} [Device δ] (commands : List Command)
    (r : Renderer δ) : commands.foldl Renderer.perform r =
      { r with device := commands.foldl Device.perform r.device } := by
  induction commands generalizing r with
  | nil => rfl
  | cons c rest ih => exact ih _

namespace Instruction

/-- The commands by which an image, or else a color, is bound. -/
def bindings (program : ProgramId) (uniform : String) (unit : Nat) (levels? : Option String)
    (shown : ImageDescriptor × Bool) : List Command :=
  [.bindTexture shown.1.texture unit {}, .setUniform program uniform (.sampler unit)] ++
    (levels?.filter fun _ => shown.2).toList.map fun name =>
      .setUniform program name (.count shown.1.mipCount)

variable {δ : Type} [Device δ]

/-- The renderer after an instruction. -/
def run (files : FileTree) (r : Renderer δ) : Instruction → Renderer δ
  | command c => r.perform c
  | sampler program uniform unit path? fallback? levels? =>
    let (shown?, r) := r.imageOr files path? fallback?
    (shown?.elim [] (bindings program uniform unit levels?)).foldl Renderer.perform r

theorem run_sampler (files : FileTree) (r : Renderer δ) (program : ProgramId) (uniform : String)
    (unit : Nat) (path? : Option Path) (fallback? : Option Color) (levels? : Option String) :
    (sampler program uniform unit path? fallback? levels?).run files r =
      ((r.imageOr files path? fallback?).1.elim [] (bindings program uniform unit levels?)).foldl
        Renderer.perform (r.imageOr files path? fallback?).2 := rfl

/-- The renderer after several instructions. -/
def runAll (files : FileTree) (script : List Instruction) (r : Renderer δ) : Renderer δ :=
  script.foldl (run files) r

@[simp]
theorem runAll_nil (files : FileTree) (r : Renderer δ) : runAll files [] r = r := rfl

@[simp]
theorem runAll_cons (files : FileTree) (i : Instruction) (rest : List Instruction)
    (r : Renderer δ) : runAll files (i :: rest) r = runAll files rest (i.run files r) := rfl

@[simp]
theorem runAll_append (files : FileTree) (script script' : List Instruction) (r : Renderer δ) :
    runAll files (script ++ script') r = runAll files script' (runAll files script r) :=
  List.foldl_append

/-- A fold of steps that are runs of scripts is the run of these scripts one after the other. -/
theorem foldl_eq_runAll {α : Type} {files : FileTree} {f : Renderer δ → α → Renderer δ}
    {script : α → List Instruction} (h : ∀ x r, f r x = runAll files (script x) r) (xs : List α)
    (r : Renderer δ) : xs.foldl f r = runAll files (xs.flatMap script) r := by
  induction xs generalizing r with
  | nil => rfl
  | cons x rest ih => rw [List.foldl_cons, ih, h, List.flatMap_cons, runAll_append]

end Instruction

namespace ShaderBinding

open Instruction (runAll)

variable (b : ShaderBinding)

/-! ## The scripts -/

/-- The script of writing a uniform that the shader may declare. -/
def setScript (name : String) (value : UniformValue) : List Instruction :=
  if b.shader.hasUniform name then [.command (.setUniform b.program.id name value)] else []

/-- The script of giving a sampler an image, or else a color. -/
def textureScript (uniform : String) (path? : Option Path) (fallback? : Option Color)
    (levels? : Option String) : List Instruction :=
  (Ordered.get? uniform b.units).toList.map fun unit =>
    .sampler b.program.id uniform unit path? fallback? levels?

/-- The script of making the program current. -/
def useScript : List Instruction :=
  [.command (.useProgram b.program.id), .command (.setBlending b.shader.transparency)]

/-- The script of writing the transforms and the position of the camera. -/
def viewScript (world view projection : Matrix4) : List Instruction :=
  let matrix (m : Matrix4) : UniformValue := .matrix 4 m.toList
  b.setScript Uniforms.worldMatrix (matrix world) ++
    b.setScript Uniforms.viewProjectionMatrix (matrix (projection * view)) ++
    b.setScript Uniforms.worldInverseTranspose (matrix world.inverse.transpose) ++
    b.setScript Uniforms.viewPosition (.vector view.inverse.w.truncate.toList)

/-- The script of binding the images, once their files were looked up. -/
def imagesScript (tile? : Option String) (fallback? : Option Color) : List Instruction :=
  b.shader.imageUniforms.flatMap fun v =>
    b.textureScript v.name ((imageName? tile? v).bind b.found?) fallback? none

/-- The binding after the file of a map of the environment was looked up, if it is used. -/
def lookUpMap (files : FileTree) (search : SearchPath) (indirect : Bool) (uniform name : String) :
    ShaderBinding :=
  if (Ordered.get? uniform b.units).isNone then b
  else (mapName? indirect name).elim b (b.lookUp files search)

theorem lookUpMap_finds (files : FileTree) (search : SearchPath) (indirect : Bool)
    (uniform name : String) :
    Finds files search b (b.lookUpMap files search indirect uniform name) := by
  unfold lookUpMap
  split
  · exact .refl b
  · cases mapName? indirect name with
    | none => exact .refl b
    | some name => exact b.lookUp_finds files search name

/-- The script of binding a map of the environment, once its file was looked up. -/
def mapScript (indirect : Bool) (uniform name : String) (levels? : Option String) :
    List Instruction :=
  b.textureScript uniform ((mapName? indirect name).bind b.found?) (some .opaqueBlack) levels?

/-- The uniform for the number of mip levels, if the shader declares it. -/
def levels? : Option String :=
  if b.shader.hasUniform Uniforms.envRadianceMips then some Uniforms.envRadianceMips else none

/-- The script of writing the data of the lights. -/
def rigScript (rig : LightRig) (direct : Bool) : List Instruction :=
  let capacity := b.shader.maxLights
  let active := if direct then min rig.lights.length capacity else 0
  b.setScript Uniforms.activeLights (.count active) ++
    (rig.lights.take capacity).zipIdx.flatMap fun (light, index) =>
      ((lightFields light).filter fun field => b.shader.hasLightField index field.1).map
        fun field => .command
          (.setUniform b.program.id (GeneratedShader.lightDataUniform index field.1) field.2)

/-- The binding after the files of both maps of the environment were looked up, with the script of
binding them. -/
def environmentScript (files : FileTree) (search : SearchPath)
    (environment : EnvironmentLighting) : ShaderBinding × List Instruction :=
  let first := b.lookUpMap files search environment.indirect Uniforms.envRadiance
    environment.radiance
  let second := first.lookUpMap files search environment.indirect Uniforms.envIrradiance
    environment.irradiance
  (second, b.setScript Uniforms.envSamples (.count environment.samples) ++
    first.mapScript environment.indirect Uniforms.envRadiance environment.radiance first.levels? ++
    second.mapScript environment.indirect Uniforms.envIrradiance environment.irradiance none)

/-- The binding and the script of binding the environment and the lights. -/
def lightsScript (files : FileTree) (search : SearchPath) (rig : LightRig)
    (environment : EnvironmentLighting) : ShaderBinding × List Instruction :=
  let (b, script) := b.environmentScript files search environment
  (b, script ++ b.rigScript rig environment.direct)

/-- The script of uploading a mesh. -/
def meshScript (mesh : Mesh) : List Instruction :=
  (b.streams mesh).map fun s =>
    .command (.uploadAttribute b.program.id s.name s.data s.components)

/-- The script of drawing a partition. -/
def partitionScript (p : MeshPartition) : List Instruction :=
  [.command (.uploadIndices b.program.id p.indices), .command (.draw b.program.id p.indices.length)]

/-- The script of writing a document value. -/
def valueScript (name : String) (value : Value) : List Instruction :=
  (UniformValue.ofValue? value).elim [] (b.setScript name)

/-! ## Operations are runs of their scripts -/

variable {δ : Type} [Device δ] (r : Renderer δ) (files : FileTree) (search : SearchPath)

theorem set_eq_runAll (name : String) (value : UniformValue) :
    b.set name value r = runAll files (b.setScript name value) r := by
  unfold set setScript
  split <;> rfl

theorem use_eq_runAll : b.use r = runAll files b.useScript r := rfl

theorem bindView_eq_runAll (world view projection : Matrix4) :
    b.bindView world view projection r = runAll files (b.viewScript world view projection) r := by
  simp only [bindView, viewScript, Instruction.runAll_append, ← set_eq_runAll]

/-- The renderer after the number of mip levels was written, if an image was bound. -/
def writeLevels (levels? : Option String) (answer : Option ImageDescriptor × Renderer δ) :
    Renderer δ :=
  match answer.1, levels? with
  | some image, some levels => b.write levels (.count image.mipCount) answer.2
  | _, _ => answer.2

theorem writeLevels_bindTexture (uniform : String) (path? : Option Path)
    (fallback? : Option Color) (levels? : Option String) :
    b.writeLevels levels? (b.bindTexture files uniform path? fallback? r) =
      runAll files (b.textureScript uniform path? fallback? levels?) r := by
  unfold bindTexture textureScript
  cases Ordered.get? uniform b.units with
  | none => rfl
  | some unit =>
    simp only [Option.toList_some, List.map_cons, List.map_nil, Instruction.runAll_cons,
      Instruction.runAll_nil, Instruction.run]
    rcases r.imageOr files path? fallback? with ⟨_ | ⟨descriptor, isImage⟩, r'⟩
    · rfl
    · cases isImage <;> cases levels? <;> rfl

theorem bindTexture_eq_runAll (uniform : String) (path? : Option Path) (fallback? : Option Color) :
    (b.bindTexture files uniform path? fallback? r).2 =
      runAll files (b.textureScript uniform path? fallback? none) r := by
  rw [← writeLevels_bindTexture]
  unfold writeLevels
  cases (b.bindTexture files uniform path? fallback? r).1 <;> rfl

theorem foldl_bindUniformImage_eq_runAll (tile? : Option String) (fallback? : Option Color)
    (vs : List ShaderVariable) (state : Nat × Renderer δ) :
    (vs.foldl (b.bindUniformImage files tile? fallback?) state).2 =
      runAll files (vs.flatMap fun v =>
        b.textureScript v.name ((imageName? tile? v).bind b.found?) fallback? none) state.2 := by
  induction vs generalizing state with
  | nil => rfl
  | cons v rest ih =>
    rw [List.foldl_cons, ih, List.flatMap_cons, Instruction.runAll_append,
      ← bindTexture_eq_runAll]
    rfl

theorem bindImages_eq_runAll (tile? : Option String) (fallback? : Option Color) :
    (b.bindImages files search tile? fallback? r).2 =
      let b' := b.lookUpImages files search tile?
      (b', runAll files (b'.imagesScript tile? fallback?) r) :=
  Prod.ext rfl (foldl_bindUniformImage_eq_runAll _ files tile? fallback? _ (0, r))

theorem bindImage_eq_runAll (tile? : Option String) (uniform name : String)
    (fallback? : Option Color) :
    (b.bindImage files search tile? uniform name fallback? r).2 =
      let b' := b.lookUp files search (forTile tile? name)
      (b', runAll files
        (b'.textureScript uniform (b'.found? (forTile tile? name)) fallback? none) r) :=
  Prod.ext rfl (bindTexture_eq_runAll _ r files uniform _ fallback?)

theorem bindMap_eq_runAll (indirect : Bool) (uniform name : String) (levels? : Option String) :
    let b' := b.lookUpMap files search indirect uniform name
    let answer := b.bindMap files search indirect uniform name r
    answer.2.1 = b' ∧ b'.writeLevels levels? (answer.1, answer.2.2) =
      runAll files (b'.mapScript indirect uniform name levels?) r := by
  unfold bindMap lookUpMap mapScript mapName?
  cases hunit : Ordered.get? uniform b.units with
  | none =>
    refine ⟨rfl, ?_⟩
    simp only [Option.isNone_none, if_true, textureScript, hunit]
    rfl
  | some unit =>
    simp only [Option.isNone_some, Bool.false_eq_true, if_false]
    by_cases hused : (indirect && decide (name ≠ "")) = true
    · simp only [if_pos hused, Option.elim_some, Option.bind_some]
      exact ⟨trivial, writeLevels_bindTexture _ r files uniform _ _ levels?⟩
    · simp only [if_neg hused, Option.elim_none, Option.bind_none]
      exact ⟨trivial, writeLevels_bindTexture _ r files uniform _ _ levels?⟩

theorem writeLevels_none (answer : Option ImageDescriptor × Renderer δ) :
    b.writeLevels none answer = answer.2 := by
  unfold writeLevels
  cases answer.1 <;> rfl

/-- The number of mip levels is written only if the shader declares the uniform for it. -/
theorem writeLevels_levels? (answer : Option ImageDescriptor × Renderer δ) :
    b.writeLevels b.levels? answer =
      match answer.1 with
      | some image => b.set Uniforms.envRadianceMips (.count image.mipCount) answer.2
      | none => answer.2 := by
  unfold writeLevels levels? set
  cases answer.1 with
  | none => rfl
  | some image =>
    by_cases hlevels : b.shader.hasUniform Uniforms.envRadianceMips
    · simp only [if_pos hlevels]
    · simp only [if_neg hlevels]

theorem bindEnvironment_eq_runAll (environment : EnvironmentLighting) :
    b.bindEnvironment files search environment r =
      ((b.environmentScript files search environment).1,
        runAll files (b.environmentScript files search environment).2 r) := by
  unfold bindEnvironment environmentScript
  simp only [Instruction.runAll_append, ← set_eq_runAll]
  obtain ⟨hfirst, hradiance⟩ := b.bindMap_eq_runAll
    (b.set Uniforms.envSamples (.count environment.samples) r) files search environment.indirect
    Uniforms.envRadiance environment.radiance
    (b.lookUpMap files search environment.indirect Uniforms.envRadiance
      environment.radiance).levels?
  rw [← hradiance, writeLevels_levels?]
  generalize b.bindMap files search environment.indirect Uniforms.envRadiance environment.radiance
    (b.set Uniforms.envSamples (.count environment.samples) r) = answer at hfirst ⊢
  obtain ⟨image?, b₁, r₁⟩ := answer
  obtain rfl := hfirst
  dsimp only
  generalize b.lookUpMap files search environment.indirect Uniforms.envRadiance
    environment.radiance = first
  have hsecond : ∀ r₂ : Renderer δ, (first.bindMap files search environment.indirect
      Uniforms.envIrradiance environment.irradiance r₂).2 =
      let second := first.lookUpMap files search environment.indirect Uniforms.envIrradiance
        environment.irradiance
      (second, runAll files (second.mapScript environment.indirect Uniforms.envIrradiance
        environment.irradiance none) r₂) := by
    intro r₂
    obtain ⟨hsecond, hirradiance⟩ := first.bindMap_eq_runAll r₂ files search environment.indirect
      Uniforms.envIrradiance environment.irradiance none
    rw [writeLevels_none] at hirradiance
    exact Prod.ext hsecond hirradiance
  cases image? with
  | none => exact hsecond r₁
  | some image => exact hsecond _

theorem bindRig_eq_runAll (rig : LightRig) (direct : Bool) :
    b.bindRig rig direct r = runAll files (b.rigScript rig direct) r := by
  unfold bindRig rigScript
  dsimp only
  rw [Instruction.runAll_append, ← set_eq_runAll]
  refine Instruction.foldl_eq_runAll (fun light r => ?_) _ _
  generalize lightFields light.1 = fields
  induction fields generalizing r with
  | nil => rfl
  | cons field rest ih =>
    rw [List.foldl_cons, ih, setLightField, List.filter_cons]
    split <;> rfl

theorem bindLights_eq_runAll (rig : LightRig) (environment : EnvironmentLighting) :
    b.bindLights files search rig environment r =
      ((b.lightsScript files search rig environment).1,
        runAll files (b.lightsScript files search rig environment).2 r) := by
  simp only [bindLights, lightsScript, bindEnvironment_eq_runAll, bindRig_eq_runAll _ _ files,
    Instruction.runAll_append]

theorem bindMesh_eq_runAll (mesh : Mesh) :
    (b.bindMesh mesh r).2 = runAll files (b.meshScript mesh) r := by
  unfold bindMesh meshScript
  rw [List.map_eq_flatMap]
  exact Instruction.foldl_eq_runAll
    (fun (s : MeshStream) (r : Renderer δ) => show
      r.perform (.uploadAttribute b.program.id s.name s.data s.components) = _ from rfl) _ r

theorem drawPartition_eq_runAll (p : MeshPartition) :
    b.drawPartition p r = runAll files (b.partitionScript p) r := rfl

theorem setUniform_eq_runAll (name : String) (value : Value) :
    (b.setUniform name value r).2 = runAll files (b.valueScript name value) r := by
  unfold setUniform valueScript
  cases UniformValue.ofValue? value with
  | none => rfl
  | some u => exact b.set_eq_runAll r files name u

end ShaderBinding

end MaterialViewer
