import MaterialViewer.Proofs.Rendering.Binding
import MaterialViewer.Rendering.Material

/-!
# Proofs: materials

What a step of a material does. A material can be bound exactly if it has a shader, and once it is
bound nothing fails any more. Only generating a shader fails for other reasons, and on a headless
device it leaves the renderer as it was.
-/

namespace MaterialViewer

/-- The renderer after the program of a binding has been made current. -/
def ShaderBinding.use {δ : Type} [Device δ] (b : ShaderBinding) (r : Renderer δ) : Renderer δ :=
  (r.perform (.useProgram b.program.id)).perform (.setBlending b.shader.transparency)

namespace Material

open Renderer (DrivenBy)

variable {δ : Type} [Device δ] {m m' : Material} {b : ShaderBinding}

/-- The material is for a subset: it draws the element of the subset, for its tile. -/
def IsFor (m : Material) (subset : MaterialSubset) : Prop :=
  m.element = subset.element.path ∧ m.tile? = subset.tile?.filter (· ≠ "")

/-- The material with its program made current. -/
def withBound (m : Material) (b : ShaderBinding) : Material := { m with state := .bound b }

theorem isFor_ofSubset (subset : MaterialSubset) : (ofSubset subset).IsFor subset := ⟨rfl, rfl⟩

theorem program?_of_binding? (h : m.binding? = some b) : m.program? = some b.program := by
  unfold program?
  rw [h]
  rfl

theorem exists_binding_of_shader? (h : m.shader?.isSome = true) : ∃ b, m.binding? = some b := by
  unfold shader? at h
  rw [Option.isSome_map] at h
  exact Option.isSome_iff_exists.1 h

theorem bind_ok (h : m.binding? = some b) (r : Renderer δ) :
    m.bind r = .ok (m.withBound b, b.use r) := by
  unfold bind
  rw [h]
  rfl

/-! ## Bound materials -/

section Bound

variable (m : Material) (b : ShaderBinding) (files : FileTree) (search : SearchPath)
  (r : Renderer δ)

theorem bindView_ok (world view projection : Matrix4) :
    (m.withBound b).bindView world view projection r = .ok (b.bindView world view projection r) :=
  rfl

theorem bindImages_ok (fallback? : Option Color) :
    (m.withBound b).bindImages files search fallback? r =
      let (count, b', r') := b.bindImages files search m.tile? fallback? r
      .ok (count, m.withBound b', r') := rfl

theorem bindLights_ok (rig : LightRig) (environment : EnvironmentLighting) :
    (m.withBound b).bindLights files search rig environment r =
      let (b', r') := b.bindLights files search rig environment r
      .ok (m.withBound b', r') := rfl

theorem drawPartitions_ok (ps : List MeshPartition) :
    ps.foldlM (fun r p => (m.withBound b).drawPartition p r) r =
      Except.ok (ps.foldl (fun r p => b.drawPartition p r) r) := by
  induction ps generalizing r with
  | nil => rfl
  | cons p rest ih => exact ih (b.drawPartition p r)

end Bound

/-! ## Shaders -/

section Generate

variable {g : ShaderGenerator} {d : Document} {files : FileTree} {options : GeneratorOptions}

/-- A material gets the shader generated for its element, with a program for its sources. -/
theorem generate_ok {r r' : Renderer δ}
    (h : m.generate g d files options r = (.ok m', r')) :
    ∃ shader program, m' = { m with state := .generated (.new shader program) } ∧
      g.generate d files m.element
        { options with transparency := Transparency.isTransparent d m.element } = .ok shader ∧
      r.program shader.name ⟨shader.vertexSource, shader.pixelSource⟩ = (.ok program, r') := by
  unfold generate at h
  dsimp only at h
  split at h
  · cases (Prod.mk.inj h).1
  · rename_i shader hshader
    split at h
    · cases (Prod.mk.inj h).1
    · rename_i program r₁ hprogram
      obtain ⟨hm, rfl⟩ := Prod.mk.inj h
      obtain rfl := Except.ok.inj hm
      exact ⟨shader, program, rfl, hshader, hprogram⟩

/-- Generating a shader does no more with the renderer than to ask for its program. -/
theorem generate_renderer (m : Material) (g : ShaderGenerator) (d : Document) (files : FileTree)
    (options : GeneratorOptions) (r : Renderer δ) :
    (m.generate g d files options r).2 = r ∨
      ∃ name source, (m.generate g d files options r).2 = (r.program name source).2 := by
  unfold generate
  dsimp only
  split
  · exact .inl rfl
  · rename_i shader hshader
    refine .inr ⟨shader.name, ⟨shader.vertexSource, shader.pixelSource⟩, ?_⟩
    obtain ⟨result, r'⟩ := r.program shader.name ⟨shader.vertexSource, shader.pixelSource⟩
    cases result <;> rfl

/-- On a headless device a shader that cannot be had leaves the renderer as it was. -/
theorem generate_error {r r' : Renderer Headless} {e : MaterialError}
    (h : m.generate g d files options r = (.error e, r')) : r' = r := by
  unfold generate at h
  dsimp only at h
  split at h
  · exact (Prod.mk.inj h).2.symm
  · split at h
    · rename_i e' r₁ hprogram
      obtain ⟨-, rfl⟩ := Prod.mk.inj h
      exact Renderer.program_error hprogram
    · cases (Prod.mk.inj h).1

end Generate

/-! ## On a headless device -/

variable {r r' : Renderer Headless}

/-- A binding that draws after its program was made current leaves it current, and what was live
stays live. -/
theorem drawn_current (h : DrivenBy b.Gives (b.use r) r') :
    r'.device.current? = some b.program.id ∧
      (∀ p, r.device.IsLive p → r'.device.IsLive p) ∧ (r.AllLive → r'.AllLive) := by
  have hsteady : Headless.Steady (b.use r).device r'.device :=
    h.steady fun _ => ShaderBinding.Gives.isQuiet
  refine ⟨hsteady.current, fun p hp => hsteady.live p hp, fun hlive => ?_⟩
  have husing : (b.use r).AllLive := hlive
  exact husing.drivenBy h fun _ => ShaderBinding.Gives.isQuiet

end Material

end MaterialViewer
