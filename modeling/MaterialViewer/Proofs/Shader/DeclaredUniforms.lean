import MaterialViewer.Proofs.Shader.Uniforms

/-!
# Proofs: asking a shader for its uniforms

A shader is asked for a uniform by its name. It knows its variables, and the fields of the lights
for which there is room, whose names it takes apart. The number in the name of a field is read as
any number is, so a field is known not only under the name that it has, but also with a sign or
zeros before its number. Under no other name does the shader know a uniform that it does not
declare, and it tells the type of just those that it knows.
-/

namespace MaterialViewer

namespace GeneratedShader

variable {shader : GeneratedShader} {name field : String} {index : Nat} {number : List Char}

/-! ## What a shader declares -/

/-- A name is that of a uniform of the shader: a variable, or a field of a light for which there is
room. -/
def Declares (shader : GeneratedShader) (name : String) : Prop :=
  name ∈ shader.publicUniforms.names ∨ name ∈ shader.privateUniforms.names ∨
    ∃ index < shader.maxLights, ∃ field ∈ shader.lightData.names,
      name = lightDataUniform index field

/-- A name is that of a field of a light for which there is room, apart from a sign or zeros before
the number of the light. -/
def Respells (shader : GeneratedShader) (name : String) : Prop :=
  ∃ index < shader.maxLights, ∃ field ∈ shader.lightData.names, ∃ number,
    Number.StandsFor number index ∧ number ≠ Number.natText index ∧ name = fieldName number field

/-- A shader has a uniform exactly if it declares it, or a field that is spelled in another way. -/
theorem hasUniform_iff (hroom : shader.maxLights ≤ 2 ^ 64) :
    shader.hasUniform name = true ↔ shader.Declares name ∨ shader.Respells name := by
  have hfield : (∃ index field, parseLightDataUniform? name = some (index, field) ∧
        shader.hasLightField index field = true) ↔
      ∃ index < shader.maxLights, ∃ field ∈ shader.lightData.names, ∃ number,
        Number.StandsFor number index ∧ name = fieldName number field := by
    constructor
    · rintro ⟨index, field, hparse, hhas⟩
      obtain ⟨hlt, hdata⟩ := hasLightField_iff.mp hhas
      obtain ⟨-, number, hnumber⟩ := parseLightDataUniform?_eq_some_iff.mp hparse
      exact ⟨index, hlt, field, VariableBlock.mem_names_iff.mpr hdata, number, hnumber⟩
    · rintro ⟨index, hlt, field, hdata, number, hnumber⟩
      have hparse : parseLightDataUniform? name = some (index, field) :=
        parseLightDataUniform?_eq_some_iff.mpr ⟨by omega, number, hnumber⟩
      exact ⟨index, field, hparse, hasLightField_iff.mpr
        ⟨hlt, VariableBlock.mem_names_iff.mp hdata⟩⟩
  have hvariable {b : VariableBlock} : b.contains name = true ↔ name ∈ b.names :=
    VariableBlock.mem_names_iff.symm
  rw [hasUniform, Bool.or_eq_true, Bool.or_eq_true, hvariable, hvariable, Option.any_eq_true,
    Prod.exists, hfield, or_assoc]
  constructor
  · rintro (hpublic | hprivate | ⟨index, hlt, field, hdata, number, hstands, hname⟩)
    · exact .inl (.inl hpublic)
    · exact .inl (.inr (.inl hprivate))
    · by_cases hnumber : number = Number.natText index
      · subst hnumber
        exact .inl (.inr (.inr ⟨index, hlt, field, hdata, hname⟩))
      · exact .inr ⟨index, hlt, field, hdata, number, hstands, hnumber, hname⟩
  · rintro ((hpublic | hprivate | ⟨index, hlt, field, hdata, hname⟩) |
      ⟨index, hlt, field, hdata, number, hstands, -, hname⟩)
    · exact .inl hpublic
    · exact .inr (.inl hprivate)
    · exact .inr (.inr ⟨index, hlt, field, hdata, _, Number.natText_standsFor index, hname⟩)
    · exact .inr (.inr ⟨index, hlt, field, hdata, number, hstands, hname⟩)

/-- A shader tells the types of the uniforms that it has. -/
theorem uniformType?_isSome (shader : GeneratedShader) (name : String) :
    (shader.uniformType? name).isSome = shader.hasUniform name := by
  unfold uniformType? uniform? hasUniform hasLightField VariableBlock.contains
  rw [Option.isSome_map, Option.isSome_or, Option.isSome_or]
  congr 1
  cases parseLightDataUniform? name <;> rfl

/-- No uniform has a respelled name, if those of variables are identifiers. -/
theorem Respells.not_declares (h : shader.Respells name)
    (hpublic : shader.publicUniforms.HasIdentifiers)
    (hprivate : shader.privateUniforms.HasIdentifiers) : ¬ shader.Declares name := by
  obtain ⟨index, -, field, -, number, hstands, hnumber, rfl⟩ := h
  have hvariable {b : VariableBlock} (hb : b.HasIdentifiers) : fieldName number field ∉ b.names :=
    mt VariableBlock.mem_names_iff.mp (Bool.eq_false_iff.mp (contains_fieldName hb number field))
  rintro (hmem | hmem | ⟨other, -, field', -, hname⟩)
  · exact hvariable hpublic hmem
  · exact hvariable hprivate hmem
  · have hother := Number.natText_standsFor other
    obtain ⟨rfl, -⟩ := fieldName_inj hstands hother hname
    exact hnumber (congrArg Number.natText (hother.unique hstands))

end GeneratedShader

/-! ## Generated shaders -/

variable {gen : ShaderGenerator} {d : Document} {files : FileTree} {path : String}
  {options : GeneratorOptions} {shader : GeneratedShader}

/-- A generated shader with room for lights has a uniform for the kind of the first one, whose name
can be spelled with a sign. -/
theorem exists_respells (h : gen.generate d files path options = .ok shader)
    (hlit : 0 < shader.maxLights) :
    shader.Respells (GeneratedShader.fieldName ['+', '0'] LightKinds.typeField) := by
  have htype : shader.lightData.contains LightKinds.typeField = true := by
    rw [generate_lightData h hlit]
    exact gen.lights.typeField_isSome d
  exact ⟨0, hlit, LightKinds.typeField, VariableBlock.mem_names_iff.mpr htype, ['+', '0'],
    ⟨['+'], 0, .inr rfl, rfl⟩, by decide, rfl⟩

/-- A generated shader has the uniforms that it declares, apart from fields of lights under other
spellings of their names, and it tells the types of those that it has. It has exactly those that it
declares if it has no room for lights, and only then. -/
theorem generate_hasUniform_iff (h : gen.generate d files path options = .ok shader)
    (hrange : options.maxLights < 2 ^ 64) :
    (∀ name, (shader.hasUniform name = true ↔ shader.Declares name) ↔ ¬ shader.Respells name) ∧
      (∀ name, (shader.uniformType? name).isSome = shader.hasUniform name) ∧
      ((∀ name, shader.hasUniform name = true ↔ shader.Declares name) ↔ shader.maxLights = 0) := by
  obtain ⟨hpublic, hprivate⟩ := generate_hasIdentifiers h
  have hroom : shader.maxLights ≤ 2 ^ 64 := by
    have hle := maxLights_le h
    omega
  have hexact : ∀ name,
      (shader.hasUniform name = true ↔ shader.Declares name) ↔ ¬ shader.Respells name := by
    intro name
    rw [GeneratedShader.hasUniform_iff hroom, or_iff_left_iff_imp]
    exact ⟨fun himp hrespells => hrespells.not_declares hpublic hprivate (himp hrespells),
      fun hnot hrespells => absurd hrespells hnot⟩
  refine ⟨hexact, shader.uniformType?_isSome, fun hall => ?_, fun hnone name => ?_⟩
  · refine Nat.eq_zero_of_not_pos fun hlit => ?_
    exact (hexact _).mp (hall _) (exists_respells h hlit)
  · refine (hexact name).mpr fun ⟨index, hlt, _⟩ => ?_
    omega

theorem generate_hasUniform_iff_lamp : ∃ shader, lampShader = .ok shader ∧
    (∀ name, (shader.hasUniform name = true ↔ shader.Declares name) ↔ ¬ shader.Respells name) ∧
    (∀ name, (shader.uniformType? name).isSome = shader.hasUniform name) ∧
    ((∀ name, shader.hasUniform name = true ↔ shader.Declares name) ↔ shader.maxLights = 0) := by
  obtain ⟨shader, hshader, -⟩ := lampShader_ok
  exact ⟨shader, hshader, generate_hasUniform_iff hshader (by decide)⟩

/-- The uniform for the kind of the first light is known under a name with a sign as well. -/
theorem not_declares_signed : ∃ shader, lampShader = .ok shader ∧
    shader.hasUniform "u_lightData[+0].type" = true ∧
    ¬ shader.Declares "u_lightData[+0].type" := by
  obtain ⟨shader, hshader, hmax⟩ := lampShader_ok
  have hname : GeneratedShader.fieldName ['+', '0'] LightKinds.typeField =
      "u_lightData[+0].type" := by decide +kernel
  have hrespells := exists_respells hshader (by omega)
  rw [hname] at hrespells
  obtain ⟨hpublic, hprivate⟩ := generate_hasIdentifiers hshader
  refine ⟨shader, hshader, ?_, hrespells.not_declares hpublic hprivate⟩
  exact (GeneratedShader.hasUniform_iff (by omega)).mpr (.inr hrespells)

end MaterialViewer
