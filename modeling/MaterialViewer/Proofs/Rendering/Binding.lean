import MaterialViewer.Proofs.Rendering.Renderer
import MaterialViewer.Rendering.Binding

/-!
# Proofs: shader bindings

A binding writes to its own program, and only what the shader declares: uniforms, samplers with
their units, and the fields of lights. It neither makes programs current nor gives them up, and what
it draws with stays the same while it looks up files.
-/

namespace MaterialViewer.ShaderBinding

open Renderer (DrivenBy perform_drivenBy foldl_drivenBy imageOr_drivenBy)

/-- The commands that a binding gives. -/
inductive Gives (b : ShaderBinding) : Command → Prop
  | uniform {name : String} (h : b.shader.hasUniform name = true) (value : UniformValue) :
      b.Gives (.setUniform b.program.id name value)
  | lightField {index : Nat} {field : String} (h : b.shader.hasLightField index field = true)
      (value : UniformValue) :
      b.Gives (.setUniform b.program.id (GeneratedShader.lightDataUniform index field) value)
  | sampler {name : String} {unit : Nat} (h : Ordered.get? name b.units = some unit) :
      b.Gives (.setUniform b.program.id name (.sampler unit))
  | texture {name : String} {unit : Nat} (h : Ordered.get? name b.units = some unit)
      (texture : TextureId) (sampling : Sampling) : b.Gives (.bindTexture texture unit sampling)
  | stream {name : String} (h : b.shader.hasVertexInput name = true) (data : List Single)
      (components : Nat) : b.Gives (.uploadAttribute b.program.id name data components)
  | indices (indices : List Nat) : b.Gives (.uploadIndices b.program.id indices)
  | draw (count : Nat) : b.Gives (.draw b.program.id count)

variable {b b₁ b₂ : ShaderBinding}

theorem Gives.isQuiet {c : Command} (h : b.Gives c) : c.IsQuiet := by
  cases h <;> exact trivial

/-- The bindings differ at most in the files that were looked up. -/
structure Alike (b b' : ShaderBinding) : Prop where
  shader : b'.shader = b.shader
  program : b'.program = b.program
  units : b'.units = b.units

theorem Alike.refl (b : ShaderBinding) : Alike b b := ⟨rfl, rfl, rfl⟩

theorem Alike.trans (h : Alike b b₁) (h' : Alike b₁ b₂) : Alike b b₂ :=
  ⟨h'.shader.trans h.shader, h'.program.trans h.program, h'.units.trans h.units⟩

theorem Alike.gives (h : Alike b b₁) {c : Command} (hc : b₁.Gives c) : b.Gives c := by
  obtain ⟨hshader, hprogram, hunits⟩ := h
  cases hc with
  | uniform hname value => exact hprogram ▸ .uniform (hshader ▸ hname) value
  | lightField hfield value => exact hprogram ▸ .lightField (hshader ▸ hfield) value
  | sampler hunit => exact hprogram ▸ .sampler (hunits ▸ hunit)
  | texture hunit t sampling => exact .texture (hunits ▸ hunit) t sampling
  | stream hname data components =>
    exact hprogram ▸ .stream (hshader ▸ hname) data components
  | indices indices => exact hprogram ▸ .indices indices
  | draw count => exact hprogram ▸ .draw count

/-- The commands that a binding gives, with the uniforms that they write among the given ones, and
the units that they put textures on among those of the given ones. -/
structure GivesFor (b : ShaderBinding) (names : List String) (c : Command) : Prop where
  gives : b.Gives c
  uniform : ∀ p name value, c = .setUniform p name value → name ∈ names
  texture : ∀ t unit sampling, c = .bindTexture t unit sampling →
    ∃ name ∈ names, Ordered.get? name b.units = some unit

theorem Alike.givesFor (h : Alike b b₁) {names : List String} {c : Command}
    (hc : b₁.GivesFor names c) : b.GivesFor names c :=
  ⟨h.gives hc.gives, hc.uniform, fun t unit sampling heq => h.units ▸ hc.texture t unit sampling heq⟩

theorem GivesFor.mono {names more : List String} (hmore : ∀ name ∈ names, name ∈ more)
    {c : Command} (h : b.GivesFor names c) : b.GivesFor more c := by
  refine ⟨h.gives, fun p name value hc => hmore name (h.uniform p name value hc), ?_⟩
  intro t unit sampling hc
  obtain ⟨name, hname, hunit⟩ := h.texture t unit sampling hc
  exact ⟨name, hmore name hname, hunit⟩

theorem lookUp_alike (b : ShaderBinding) (files : FileTree) (search : SearchPath) (name : String) :
    Alike b (b.lookUp files search name) := by
  unfold lookUp
  split
  · exact .refl b
  · exact ⟨rfl, rfl, rfl⟩

theorem lookUpImages_alike (b : ShaderBinding) (files : FileTree) (search : SearchPath)
    (tile? : Option String) : Alike b (b.lookUpImages files search tile?) := by
  unfold lookUpImages
  generalize b.shader.imageUniforms.filterMap (imageName? tile?) = names
  induction names generalizing b with
  | nil => exact .refl b
  | cons name rest ih => exact (lookUp_alike b files search name).trans (ih _)

variable {δ : Type} [Device δ]

/-- Writing a uniform. -/
theorem perform_givesFor {name : String} {value : UniformValue} (r : Renderer δ)
    (h : b.Gives (.setUniform b.program.id name value)) :
    DrivenBy (b.GivesFor [name]) r (r.perform (.setUniform b.program.id name value)) := by
  refine perform_drivenBy r ⟨h, fun p name' value' hc => ?_, nofun⟩
  obtain ⟨-, rfl, -⟩ := Command.setUniform.inj hc
  exact List.mem_singleton_self _

theorem set_drivenBy (b : ShaderBinding) (name : String) (value : UniformValue) (r : Renderer δ) :
    DrivenBy (b.GivesFor [name]) r (b.set name value r) := by
  unfold set
  by_cases hname : b.shader.hasUniform name = true
  · rw [if_pos hname]
    exact perform_givesFor r (.uniform hname value)
  · rw [if_neg hname]
    exact .refl r

theorem bindTexture_drivenBy (b : ShaderBinding) (files : FileTree) (uniform : String)
    (path? : Option Path) (fallback? : Option Color) (r : Renderer δ) :
    DrivenBy (b.GivesFor [uniform]) r (b.bindTexture files uniform path? fallback? r).2 := by
  unfold bindTexture
  cases hunit : Ordered.get? uniform b.units with
  | none => exact .refl r
  | some unit =>
    have himage : DrivenBy (b.GivesFor [uniform]) r (r.imageOr files path? fallback?).2 :=
      imageOr_drivenBy r files path? fallback?
    revert himage
    obtain ⟨image?, r₁⟩ := r.imageOr files path? fallback?
    intro himage
    cases image? with
    | none => exact himage
    | some image =>
      have htexture : DrivenBy (b.GivesFor [uniform]) r₁
          (r₁.perform (.bindTexture image.1.texture unit {})) := by
        refine perform_drivenBy r₁ ⟨.texture hunit _ _, nofun, fun t unit' sampling hc => ?_⟩
        obtain ⟨-, rfl, -⟩ := Command.bindTexture.inj hc
        exact ⟨uniform, List.mem_singleton_self _, hunit⟩
      exact (himage.trans htexture).trans (perform_givesFor _ (.sampler hunit))

theorem bindView_drivenBy (b : ShaderBinding) (world view projection : Matrix4) (r : Renderer δ) :
    DrivenBy b.Gives r (b.bindView world view projection r) := by
  have hset : ∀ name value (r : Renderer δ), DrivenBy b.Gives r (b.set name value r) :=
    fun name value r => (set_drivenBy b name value r).mono fun _ h => h.gives
  exact (((hset _ _ r).trans (hset _ _ _)).trans (hset _ _ _)).trans (hset _ _ _)

/-! ## Images -/

theorem bindUniformImage_drivenBy (b : ShaderBinding) (files : FileTree) (tile? : Option String)
    (fallback? : Option Color) (state : Nat × Renderer δ) (v : ShaderVariable) :
    DrivenBy b.Gives state.2 (b.bindUniformImage files tile? fallback? state v).2 :=
  (bindTexture_drivenBy b files v.name _ fallback? state.2).mono fun _ h => h.gives

theorem bindImages_spec (b : ShaderBinding) (files : FileTree) (search : SearchPath)
    (tile? : Option String) (fallback? : Option Color) (r : Renderer δ) :
    Alike b (b.bindImages files search tile? fallback? r).2.1 ∧
      DrivenBy b.Gives r (b.bindImages files search tile? fallback? r).2.2 := by
  have halike := lookUpImages_alike b files search tile?
  refine ⟨halike, DrivenBy.mono ?_ fun _ => halike.gives⟩
  show DrivenBy _ r (List.foldl _ (0, r) _).2
  generalize b.lookUpImages files search tile? = b₁
  have hrun : ∀ (vs : List ShaderVariable) (state : Nat × Renderer δ),
      DrivenBy b₁.Gives state.2 (vs.foldl (b₁.bindUniformImage files tile? fallback?) state).2 := by
    intro vs
    induction vs with
    | nil => exact fun state => .refl state.2
    | cons v rest ih =>
      intro state
      exact (bindUniformImage_drivenBy b₁ files tile? fallback? state v).trans (ih _)
  exact hrun _ (0, r)

theorem bindImage_spec (b : ShaderBinding) (files : FileTree) (search : SearchPath)
    (tile? : Option String) (uniform name : String) (fallback? : Option Color) (r : Renderer δ) :
    Alike b (b.bindImage files search tile? uniform name fallback? r).2.1 ∧
      DrivenBy b.Gives r (b.bindImage files search tile? uniform name fallback? r).2.2 := by
  have halike := lookUp_alike b files search (forTile tile? name)
  exact ⟨halike, (bindTexture_drivenBy _ files uniform _ fallback? r).mono
    fun _ h => halike.gives h.gives⟩

/-! ## Lights -/

theorem bindMap_spec (b : ShaderBinding) (files : FileTree) (search : SearchPath) (indirect : Bool)
    (uniform name : String) (r : Renderer δ) :
    Alike b (b.bindMap files search indirect uniform name r).2.1 ∧
      DrivenBy (b.GivesFor [uniform]) r (b.bindMap files search indirect uniform name r).2.2 := by
  unfold bindMap
  split
  · exact ⟨.refl b, .refl r⟩
  · have halike : Alike b
        (if (indirect && name ≠ "") = true then b.lookUp files search name else b) := by
      split
      · exact lookUp_alike b files search name
      · exact .refl b
    exact ⟨halike, (bindTexture_drivenBy _ files uniform _ _ r).mono fun _ => halike.givesFor⟩

/-- The uniforms of the environment. -/
def environmentUniforms : List String :=
  [Uniforms.envSamples, Uniforms.envRadiance, Uniforms.envRadianceMips, Uniforms.envIrradiance]

theorem bindEnvironment_spec (b : ShaderBinding) (files : FileTree) (search : SearchPath)
    (environment : EnvironmentLighting) (r : Renderer δ) :
    Alike b (b.bindEnvironment files search environment r).1 ∧
      DrivenBy (b.GivesFor environmentUniforms) r
        (b.bindEnvironment files search environment r).2 := by
  have hmore : ∀ {b : ShaderBinding} {name : String} {r r' : Renderer δ},
      name ∈ environmentUniforms → DrivenBy (b.GivesFor [name]) r r' →
      DrivenBy (b.GivesFor environmentUniforms) r r' := fun hname h =>
    h.mono fun _ => GivesFor.mono fun _ hin => List.mem_singleton.1 hin ▸ hname
  unfold bindEnvironment
  dsimp only
  have hsamples := hmore (by simp [environmentUniforms])
    (set_drivenBy b Uniforms.envSamples (.count environment.samples) r)
  revert hsamples
  generalize b.set Uniforms.envSamples (.count environment.samples) r = r₁
  intro hsamples
  have hradiance := bindMap_spec b files search environment.indirect Uniforms.envRadiance
    environment.radiance r₁
  revert hradiance
  obtain ⟨image?, b₂, r₂⟩ := b.bindMap files search environment.indirect Uniforms.envRadiance
    environment.radiance r₁
  rintro ⟨halike, hradiance⟩
  have hradiance := hmore (by simp [environmentUniforms]) hradiance
  have hrest : ∀ r₃, DrivenBy (b₂.GivesFor environmentUniforms) r₂ r₃ →
      let answer := b₂.bindMap files search environment.indirect Uniforms.envIrradiance
        environment.irradiance r₃
      Alike b answer.2.1 ∧ DrivenBy (b.GivesFor environmentUniforms) r answer.2.2 := by
    intro r₃ hmips
    obtain ⟨halike', hirradiance⟩ := bindMap_spec b₂ files search environment.indirect
      Uniforms.envIrradiance environment.irradiance r₃
    have hirradiance := hmore (by simp [environmentUniforms]) hirradiance
    exact ⟨halike.trans halike', (hsamples.trans hradiance).trans
      ((hmips.trans hirradiance).mono fun _ => halike.givesFor)⟩
  cases image? with
  | none => exact hrest r₂ (.refl r₂)
  | some image =>
    exact hrest _ (hmore (by simp [environmentUniforms])
      (set_drivenBy b₂ Uniforms.envRadianceMips _ r₂))

theorem setLightField_drivenBy (b : ShaderBinding) (index : Nat) (r : Renderer δ)
    (field : String × UniformValue) : DrivenBy b.Gives r (b.setLightField index r field) := by
  unfold setLightField
  by_cases hfield : b.shader.hasLightField index field.1 = true
  · rw [if_pos hfield]
    exact perform_drivenBy r (.lightField hfield field.2)
  · rw [if_neg hfield]
    exact .refl r

theorem bindRig_drivenBy (b : ShaderBinding) (rig : LightRig) (direct : Bool) (r : Renderer δ) :
    DrivenBy b.Gives r (b.bindRig rig direct r) := by
  refine ((set_drivenBy b Uniforms.activeLights _ r).mono fun _ h => h.gives).trans
    (foldl_drivenBy _ ?_ _)
  intro light _ r₁
  exact foldl_drivenBy _ (fun field _ r₂ => setLightField_drivenBy b light.2 r₂ field) r₁

theorem bindLights_spec (b : ShaderBinding) (files : FileTree) (search : SearchPath)
    (rig : LightRig) (environment : EnvironmentLighting) (r : Renderer δ) :
    Alike b (b.bindLights files search rig environment r).1 ∧
      DrivenBy b.Gives r (b.bindLights files search rig environment r).2 := by
  obtain ⟨halike, henvironment⟩ := bindEnvironment_spec b files search environment r
  refine ⟨halike, (henvironment.mono fun _ h => h.gives).trans
    (DrivenBy.mono ?_ fun _ => halike.gives)⟩
  exact bindRig_drivenBy _ rig environment.direct _

/-! ## Meshes -/

/-- What is uploaded of a mesh is what the shader reads. -/
theorem hasVertexInput_of_mem {mesh : Mesh} {s : MeshStream} (h : s ∈ b.streams mesh) :
    b.shader.hasVertexInput s.name = true := by
  obtain ⟨v, hv, hs⟩ := List.mem_filterMap.1 h
  have hname : s.name = v.name := by simpa using List.find?_some hs
  refine List.find?_isSome.2 ⟨v, hv, ?_⟩
  simp [hname]

theorem bindMesh_drivenBy (b : ShaderBinding) (mesh : Mesh) (r : Renderer δ) :
    DrivenBy b.Gives r (b.bindMesh mesh r).2 :=
  foldl_drivenBy _ (fun _ hs r₁ => perform_drivenBy r₁ (.stream (hasVertexInput_of_mem hs) _ _)) r

theorem drawPartition_drivenBy (b : ShaderBinding) (p : MeshPartition) (r : Renderer δ) :
    DrivenBy b.Gives r (b.drawPartition p r) :=
  (perform_drivenBy r (.indices p.indices)).trans (perform_drivenBy _ (.draw _))

theorem setUniform_drivenBy (b : ShaderBinding) (name : String) (value : Value) (r : Renderer δ) :
    DrivenBy b.Gives r (b.setUniform name value r).2 := by
  unfold setUniform
  split
  · exact (set_drivenBy b name _ r).mono fun _ h => h.gives
  · exact .refl r

end MaterialViewer.ShaderBinding
