import MaterialViewer.Proofs.Rendering.Lifecycle
import MaterialViewer.Proofs.Rendering.Units

/-!
# Proofs: materials write only what is declared

A material asks its shader before it writes to its program, in one of four ways: whether it declares
a uniform, whether it has a field of the data of a light, whether a sampler has a texture unit, and
which vertex attributes it reads. For a shader that was generated the answers agree: samplers are
uniforms, and so are the fields of the lights for which there is room.
-/

namespace MaterialViewer

namespace ShaderBinding

variable {b b' : ShaderBinding} {name : String}

/-- The binding was made for a generated shader, with room for no more lights than a machine can
count. -/
structure IsGenerated (b : ShaderBinding) : Prop where
  shader : ∃ (g : ShaderGenerator) (d : Document) (files : FileTree) (path : String)
    (options : GeneratorOptions), options.maxLights < 2 ^ 64 ∧
      g.generate d files path options = .ok b.shader
  units : b.units = numberSamplers (samplers b.shader)

theorem IsGenerated.alike (h : b.IsGenerated) (halike : Alike b b') : b'.IsGenerated := by
  refine ⟨?_, ?_⟩
  · rw [halike.shader]
    exact h.shader
  · rw [halike.units, halike.shader]
    exact h.units

/-- What the shader of a binding allows: to write its uniforms, the fields of lights as far as there
is room for them, and to upload the attributes that it reads, all for its own program. -/
def Allows (b : ShaderBinding) : Command → Prop
  | .setUniform p name _ =>
    p = b.program.id ∧ b.shader.hasUniform name = true ∧
      ∀ index field, name = GeneratedShader.lightDataUniform index field →
        index < b.shader.maxLights ∧ b.shader.lightData.contains field = true
  | .uploadAttribute p name _ _ => p = b.program.id ∧ b.shader.vertexInputs.contains name = true
  | _ => True

/-! ## Samplers -/

/-- A sampler with a unit is a uniform of the shader. -/
theorem IsGenerated.hasUniform_of_unit (h : b.IsGenerated) {unit : Nat}
    (hunit : Ordered.get? name b.units = some unit) : b.shader.hasUniform name = true := by
  rw [h.units] at hunit
  rcases List.mem_append.1 (mem_of_numberSamplers hunit) with himage | henvironment
  · obtain ⟨v, hv, rfl⟩ := List.mem_map.1 himage
    have hpublic : b.shader.publicUniforms.contains v.name = true :=
      List.find?_isSome.2 ⟨v, (List.mem_filter.1 hv).1, by simp⟩
    rw [GeneratedShader.hasUniform, hpublic, Bool.true_or, Bool.true_or]
  · exact (List.mem_filter.1 henvironment).2

/-- A uniform of a generated shader with the name of a field of a light is such a field. -/
theorem IsGenerated.hasUniform_lightDataUniform (h : b.IsGenerated) (index : Nat)
    (field : String) :
    b.shader.hasUniform (GeneratedShader.lightDataUniform index field) =
      b.shader.hasLightField index field := by
  obtain ⟨g, d, files, path, options, hrange, hgenerate⟩ := h.shader
  obtain ⟨hpublic, hprivate⟩ := generate_hasIdentifiers hgenerate
  refine GeneratedShader.hasUniform_lightDataUniform hpublic hprivate ?_ index field
  have hle := maxLights_le hgenerate
  omega

/-- Whatever a binding of a generated shader does is allowed by the shader. -/
theorem IsGenerated.allows (h : b.IsGenerated) {c : Command} (hc : b.Gives c) : b.Allows c := by
  have hdeclared : ∀ name value, b.shader.hasUniform name = true →
      b.Allows (.setUniform b.program.id name value) := by
    rintro name value hname
    refine ⟨rfl, hname, ?_⟩
    rintro index field rfl
    rw [h.hasUniform_lightDataUniform] at hname
    exact GeneratedShader.hasLightField_iff.1 hname
  cases hc with
  | uniform hname value => exact hdeclared _ value hname
  | lightField hfield value =>
    exact hdeclared _ value ((h.hasUniform_lightDataUniform _ _).trans hfield)
  | sampler hunit => exact hdeclared _ _ (h.hasUniform_of_unit hunit)
  | texture hunit texture sampling => exact trivial
  | stream hname data components => exact ⟨rfl, hname⟩
  | indices indices => exact trivial
  | draw count => exact trivial

end ShaderBinding

namespace Material

open Renderer (DrivenBy)

variable {δ : Type} [Device δ] {m : Material} {b : ShaderBinding} {op : Operation}

/-- An operation on a bound material keeps the shader and the program, and drives the device as the
binding does. -/
theorem Operation.onBound_spec (op : Operation) (tile? : Option String) (b : ShaderBinding)
    (r : Renderer δ) :
    b.Alike (op.onBound tile? b r).1 ∧ DrivenBy b.Gives r (op.onBound tile? b r).2 := by
  cases op with
  | generate => exact ⟨.refl b, .refl r⟩
  | bind => exact ⟨.refl b, .refl r⟩
  | bindView world view projection => exact ⟨.refl b, b.bindView_drivenBy world view projection r⟩
  | bindImages files search fallback? => exact b.bindImages_spec files search tile? fallback? r
  | bindImage files search uniform name fallback? =>
    exact b.bindImage_spec files search tile? uniform name fallback? r
  | bindLights files search rig environment =>
    exact b.bindLights_spec files search rig environment r
  | bindMesh mesh => exact ⟨.refl b, b.bindMesh_drivenBy mesh r⟩
  | drawPartition p => exact ⟨.refl b, b.drawPartition_drivenBy p r⟩
  | setUniform name value => exact ⟨.refl b, b.setUniform_drivenBy name value r⟩

/-- The options of a request for a shader are in the range of a machine. -/
def Operation.InRange : Operation → Prop
  | .generate _ _ _ options => options.maxLights < 2 ^ 64
  | _ => True

/-- The shader of the material was generated. -/
def HasGenerated (m : Material) : Prop := ∀ b, m.binding? = some b → b.IsGenerated

omit [Device δ] in
theorem binding?_of_bound (h : m.state = .bound b) : m.binding? = some b := by
  unfold binding?
  rw [h]

theorem HasGenerated.perform (h : m.HasGenerated) (hop : op.InRange) (r : Renderer δ) :
    (m.perform op r).2.1.HasGenerated := by
  have houtcome := m.perform_outcome op r
  generalize m.perform op r = outcome at houtcome ⊢
  cases houtcome with
  | @onBound _ b hstate _ =>
    intro b' hb'
    obtain rfl := Option.some.inj hb'
    exact (h b (binding?_of_bound hstate)).alike (op.onBound_spec m.tile? b r).1
  | bind hbinding =>
    intro b' hb'
    obtain rfl := Option.some.inj hb'
    exact h _ hbinding
  | @generate g d files options _ _ hgenerate =>
    obtain ⟨shader, program, rfl, hshader, -⟩ := generate_ok hgenerate
    intro b' hb'
    obtain rfl := Option.some.inj hb'
    have hrange : options.maxLights < 2 ^ 64 := hop
    exact ⟨⟨g, d, files, m.element,
      { options with transparency := Transparency.isTransparent d m.element }, hrange, hshader⟩,
      rfl⟩
  | _ => exact h

theorem HasGenerated.performAll (h : m.HasGenerated) {steps : List (Operation × Renderer δ)}
    (hsteps : ∀ step ∈ steps, step.1.InRange) : (m.performAll steps).HasGenerated := by
  induction steps generalizing m with
  | nil => exact h
  | cons step rest ih =>
    exact ih (h.perform (hsteps step List.mem_cons_self) step.2) fun other hother =>
      hsteps other (List.mem_cons_of_mem _ hother)

/-- Generating a shader only compiles it. -/
theorem uses_of_generate {g : ShaderGenerator} {d : Document} {files : FileTree}
    {options : GeneratorOptions} {result : Except MaterialError Material}
    {r r' : Renderer (Traced δ)} (h : m.generate g d files options r = (result, r')) :
    ∃ calls, r'.device.uses = r.device.uses ++ calls ∧ ∀ c, .performed c ∉ calls := by
  have hrenderer := m.generate_renderer g d files options r
  rw [h] at hrenderer
  dsimp only at hrenderer
  rcases hrenderer with rfl | ⟨name, source, rfl⟩
  · exact ⟨[], by simp, by simp⟩
  · rcases r.program_device name source with hknown | hcompiled
    · rw [hknown]
      exact ⟨[], by simp, by simp⟩
    · rw [hcompiled]
      exact ⟨[.compiled name source _], rfl, by simp⟩

/-- An operation drives the device as the shader allows, or switches programs; generating a shader
only compiles it. -/
theorem HasGenerated.uses (h : m.HasGenerated) (op : Operation) (r : Renderer (Traced δ)) :
    ∃ calls, (m.perform op r).2.2.device.uses = r.device.uses ++ calls ∧
      ∀ c, .performed c ∈ calls →
        (∃ b, m.binding? = some b ∧ b.Allows c) := by
  have houtcome := m.perform_outcome op r
  generalize m.perform op r = outcome at houtcome ⊢
  cases houtcome with
  | @onBound _ b hstate _ =>
    have hbinding := binding?_of_bound hstate
    obtain ⟨calls, huses, hcalls⟩ := Traced.uses_of_driven (op.onBound_spec m.tile? b r).2.device
    exact ⟨calls, huses, fun c hc => ⟨b, hbinding, (h b hbinding).allows (hcalls c hc)⟩⟩
  | notBound _ _ => exact ⟨[], by simp, by simp⟩
  | notGenerated _ => exact ⟨[], by simp, by simp⟩
  | @bind b hbinding =>
    have hdriven : DrivenBy b.Allows r (b.use r) :=
      (Renderer.perform_drivenBy r trivial).trans (Renderer.perform_drivenBy _ trivial)
    obtain ⟨calls, huses, hcalls⟩ := Traced.uses_of_driven hdriven.device
    exact ⟨calls, huses, fun c hc => ⟨b, hbinding, hcalls c hc⟩⟩
  | generate hgenerate =>
    obtain ⟨calls, huses, hnone⟩ := uses_of_generate hgenerate
    exact ⟨calls, huses, fun c hc => absurd hc (hnone c)⟩
  | refused hgenerate =>
    obtain ⟨calls, huses, hnone⟩ := uses_of_generate hgenerate
    exact ⟨calls, huses, fun c hc => absurd hc (hnone c)⟩

/-- Whatever operations a new material went through, with options in the range of a machine, and
whatever is done with it next. Every uniform that is written belongs to the program of the material,
and the shader of the material declares it; the field of a light is written only if there is room
for the light and lights have the field. Every attribute that is uploaded is one that the shader
reads, for the program of the material. -/
theorem performAll_probes (element : String) (tile? : Option String)
    (steps : List (Operation × Renderer (Traced δ)))
    (hrange : ∀ step ∈ steps, step.1.InRange) (op : Operation) (r : Renderer (Traced δ)) :
    let m := (new element tile?).performAll steps
    ∃ calls, (m.perform op r).2.2.device.uses = r.device.uses ++ calls ∧
      (∀ p name value, .performed (.setUniform p name value) ∈ calls →
        ∃ b, m.binding? = some b ∧ p = b.program.id ∧ b.shader.hasUniform name = true ∧
          ∀ index field, name = GeneratedShader.lightDataUniform index field →
            index < b.shader.maxLights ∧ b.shader.lightData.contains field = true) ∧
      ∀ p name data components, .performed (.uploadAttribute p name data components) ∈ calls →
        ∃ b, m.binding? = some b ∧ p = b.program.id ∧
          b.shader.vertexInputs.contains name = true := by
  intro m
  have hnew : (new element tile?).HasGenerated := fun b hb => nomatch hb
  have hm : m.HasGenerated := hnew.performAll hrange
  obtain ⟨calls, huses, hcalls⟩ := hm.uses op r
  refine ⟨calls, huses, fun p name value hcall => ?_, fun p name data components hcall => ?_⟩
  · obtain ⟨b, hb, hallows⟩ := hcalls _ hcall
    exact ⟨b, hb, hallows⟩
  · obtain ⟨b, hb, hallows⟩ := hcalls _ hcall
    exact ⟨b, hb, hallows⟩

/-- The use writes the uniform with a name. -/
def writes (name : String) : Use → Bool
  | .performed (.setUniform _ other _) => other = name
  | _ => false

/-- The kind of the light of the document is written, because there is room for the light. -/
theorem performAll_probes_lamp :
    let m := (new "top" none).performAll lampSteps
    ∃ b, m.binding? = some b ∧
      b.shader.hasUniform (GeneratedShader.lightDataUniform 0 LightKinds.typeField) = true ∧
      0 < b.shader.maxLights ∧ b.shader.lightData.contains LightKinds.typeField = true := by
  intro m
  have hrange : ∀ step ∈ lampSteps, step.1.InRange := by
    simp [lampSteps, Operation.InRange]
  let op : Operation := .bindLights (.empty []) {} (LightRig.ofDocument lampDocument) {}
  obtain ⟨calls, huses, hwrites, -⟩ :=
    performAll_probes "top" none lampSteps hrange op freshRenderer
  have hwritten : (m.perform op freshRenderer).2.2.device.uses.any
      (writes (GeneratedShader.lightDataUniform 0 LightKinds.typeField)) = true := by
    decide +kernel
  have hcalls : (m.perform op freshRenderer).2.2.device.uses = calls := huses
  rw [hcalls] at hwritten
  obtain ⟨use, huse, hname⟩ := List.any_eq_true.1 hwritten
  cases use with
  | compiled => cases hname
  | uploaded => cases hname
  | performed c =>
    cases c with
    | setUniform p name value =>
      obtain rfl : name = GeneratedShader.lightDataUniform 0 LightKinds.typeField := by
        simpa [writes] using hname
      obtain ⟨b, hb, -, hdeclared, hroom⟩ := hwrites _ _ _ huse
      exact ⟨b, hb, hdeclared, hroom 0 LightKinds.typeField rfl⟩
    | _ => cases hname

end Material

end MaterialViewer
