import MaterialViewer.Proofs.Graph.Uniforms
import MaterialViewer.Proofs.Lighting.LightData
import MaterialViewer.Proofs.Shader.Parts

/-!
# Proofs: uniforms of a shader

A generated shader declares uniforms of two sorts: variables, whose names are identifiers, and the
fields of the data of lights, whose names have brackets. So a name stands for at most one of them,
and the name of a field is read back as the light and the field for which it was made: the shader
declares it exactly if there is room for the light and lights have the field.
-/

namespace MaterialViewer

/-- The names of the variables are identifiers. -/
def VariableBlock.HasIdentifiers (b : VariableBlock) : Prop :=
  ∀ v ∈ b.entries, ∀ c ∈ v.name.toList, Glsl.isIdentifierChar c = true

namespace VariableBlock

variable {b : VariableBlock} {vs : List ShaderVariable}

theorem HasIdentifiers.add {v : ShaderVariable} (h : b.HasIdentifiers)
    (hv : ∀ c ∈ v.name.toList, Glsl.isIdentifierChar c = true) : (b.add v).HasIdentifiers := by
  intro w hw
  rcases mem_of_mem_add hw with hw | rfl
  · exact h w hw
  · exact hv

theorem HasIdentifiers.addAll (h : b.HasIdentifiers)
    (hvs : ∀ v ∈ vs, ∀ c ∈ v.name.toList, Glsl.isIdentifierChar c = true) :
    (b.addAll vs).HasIdentifiers := by
  intro w hw
  rcases mem_of_mem_addAll hw with hw | hw
  · exact h w hw
  · exact hvs w hw

theorem HasIdentifiers.of_contains (h : b.HasIdentifiers) {name : String}
    (hname : b.contains name = true) {c : Char} (hc : c ∈ name.toList) :
    Glsl.isIdentifierChar c = true := by
  obtain ⟨v, hv⟩ := Option.isSome_iff_exists.1 hname
  obtain rfl : v.name = name := by simpa using List.find?_some hv
  exact h v (List.mem_of_find?_eq_some hv) c hc

end VariableBlock

/-! ## Private uniforms -/

theorem ShaderNode.needs_hasIdentifiers {n : ShaderNode} {need : GeometryNeeds}
    (h : n.geometryNeeds? = some need) :
    ∀ v ∈ need.uniforms, ∀ c ∈ v.name.toList, Glsl.isIdentifierChar c = true := by
  have hmatrix : Uniforms.worldInverseTranspose.toList.all Glsl.isIdentifierChar = true := by
    decide +kernel
  unfold geometryNeeds? at h
  split at h
  · rename_i reader hreader
    obtain rfl := Option.some.inj h
    intro v hv
    cases reader with
    | texcoord => cases hv
    | surface property =>
      cases property with
      | position => cases hv
      | normal => exact List.mem_singleton.1 hv ▸ List.all_eq_true.1 hmatrix
      | tangent => cases hv
  · cases h

theorem lightingUniforms_hasIdentifiers (method : EnvironmentMethod) :
    VariableBlock.HasIdentifiers ⟨lightingUniforms method⟩ := by
  intro v hv
  have hname : v.name ∈ (lightingUniforms method).map (·.name) := List.mem_map_of_mem hv
  have hall : ∀ name ∈ (lightingUniforms method).map (·.name),
      name.toList.all Glsl.isIdentifierChar = true := by
    cases method <;> decide +kernel
  exact List.all_eq_true.1 (hall v.name hname)

/-- The renderer sets uniforms whose names are identifiers. -/
theorem parts_hasIdentifiers {g : ShaderGenerator} {d : Document} {files : FileTree}
    {options : GeneratorOptions} {graph : ShaderGraph} {nodes : List ShaderNode}
    {final : List Statement} {isLit : Bool} {parts : ShaderParts}
    (h : g.parts d files options graph nodes final isLit = .ok parts) :
    (parts.privateUniforms isLit).HasIdentifiers := by
  have hmade := parts_madeFor h
  have hnothing : VariableBlock.HasIdentifiers {} := fun v hv => nomatch hv
  have htransforms : ∀ name ∈ [Uniforms.worldMatrix, Uniforms.viewProjectionMatrix],
      name.toList.all Glsl.isIdentifierChar = true := by
    decide +kernel
  have hvertex : VariableBlock.HasIdentifiers
      (VariableBlock.addAll
        ⟨[{ name := Uniforms.worldMatrix, type := .tuple .matrix44 },
          { name := Uniforms.viewProjectionMatrix, type := .tuple .matrix44 }]⟩
        ((nodes.filterMap (·.geometryNeeds?)).flatMap (·.uniforms))) := by
    refine VariableBlock.HasIdentifiers.addAll (fun v hv => ?_) fun v hv => ?_
    · exact List.all_eq_true.1 (htransforms v.name (List.mem_map_of_mem hv))
    · obtain ⟨need, hneed, hv⟩ := List.mem_flatMap.1 hv
      obtain ⟨n, -, hn⟩ := List.mem_filterMap.1 hneed
      exact ShaderNode.needs_hasIdentifiers hn v hv
  have hpixel : VariableBlock.HasIdentifiers
      ⟨if isLit then lightingUniforms options.environment else []⟩ := by
    cases isLit with
    | false => exact hnothing
    | true => exact lightingUniforms_hasIdentifiers options.environment
  have hboth := (hnothing.addAll hvertex).addAll hpixel
  have hdata : Uniforms.lightData.toList.all Glsl.isIdentifierChar = true := by
    decide +kernel
  rw [ShaderParts.privateUniforms, hmade.vertexUniforms, hmade.pixelUniforms]
  cases isLit with
  | false => exact hboth
  | true => exact hboth.add (List.all_eq_true.1 hdata)

/-! ## Fields of lights -/

namespace GeneratedShader

variable {shader : GeneratedShader} {index : Nat} {field name : String}

/-- A name is taken apart exactly if it is that of a field, with a number of a machine. -/
theorem parseLightDataUniform?_eq_some_iff :
    parseLightDataUniform? name = some (index, field) ↔
      index < 2 ^ 64 ∧ ∃ number, Number.StandsFor number index ∧ name = fieldName number field := by
  have hstem : Uniforms.lightData.toList ++ ['['] = "u_lightData[".toList := by decide +kernel
  unfold parseLightDataUniform?
  dsimp only
  rw [hstem]
  constructor
  · intro h
    split at h
    · rename_i hprefix
      obtain ⟨rest, hrest⟩ := List.isPrefixOf_iff_prefix.mp hprefix
      obtain ⟨⟨front, back⟩, hsplit, hread⟩ := Option.bind_eq_some_iff.mp h
      obtain ⟨number, hnumber, heq⟩ := Option.map_eq_some_iff.mp hread
      obtain ⟨rfl, rfl⟩ := Prod.mk.inj heq
      obtain ⟨hlt, hstands⟩ := Number.readBelow?_eq_some_iff.mp hnumber
      rw [← hrest, List.drop_left] at hsplit
      obtain ⟨hcut, -⟩ := (Text.splitAtFirst?_eq_some_iff (by decide)).mp hsplit
      have hback : (String.ofList back).toList = back := String.toList_ofList
      refine ⟨hlt, front, hstands, String.toList_injective ?_⟩
      rw [toList_fieldName, hback, ← hrest, hcut]
      rfl
    · cases h
  · rintro ⟨hlt, number, hstands, rfl⟩
    have hsplit : Text.splitAtFirst? "].".toList (number ++ ']' :: '.' :: field.toList) =
        some (number, field.toList) := Text.splitAtFirst?_append (bracket_not_mem hstands)
    have hread : Number.readBelow? (Nat.pow 2 64) number = some index :=
      Number.readBelow?_eq_some_iff.mpr ⟨hlt, hstands⟩
    rw [toList_fieldName, if_pos (List.isPrefixOf_iff_prefix.mpr (List.prefix_append _ _)),
      List.drop_left, hsplit, Option.bind_some]
    dsimp only
    rw [hread, Option.map_some, String.ofList_toList]

/-- The name of a field is read back, as long as its number is one of a machine. -/
theorem parse_lightDataUniform (index : Nat) (field : String) :
    parseLightDataUniform? (lightDataUniform index field) =
      if index < 2 ^ 64 then some (index, field) else none := by
  have hown := Number.natText_standsFor index
  split
  · rename_i hlt
    exact parseLightDataUniform?_eq_some_iff.mpr ⟨hlt, Number.natText index, hown, rfl⟩
  · rename_i hlarge
    refine Option.eq_none_iff_forall_ne_some.mpr fun (other, field') hparse => hlarge ?_
    obtain ⟨hlt, number, hstands, hname⟩ := parseLightDataUniform?_eq_some_iff.mp hparse
    obtain ⟨hnumber, -⟩ := fieldName_inj hown hstands hname
    exact (hnumber ▸ hown).unique hstands ▸ hlt

/-- No variable has the name of a field, however the number is written. -/
theorem contains_fieldName {b : VariableBlock} (h : b.HasIdentifiers) (number : List Char)
    (field : String) : b.contains (fieldName number field) = false := by
  refine Bool.eq_false_iff.2 fun hcontains => ?_
  have hbracket : ']' ∈ (fieldName number field).toList := by
    rw [toList_fieldName]
    simp
  exact absurd (h.of_contains hcontains hbracket) (by decide)

theorem contains_lightDataUniform {b : VariableBlock} (h : b.HasIdentifiers) (index : Nat)
    (field : String) : b.contains (lightDataUniform index field) = false :=
  contains_fieldName h (Number.natText index) field

/-- A shader declares a field exactly if there is room for the light and lights have the field. -/
theorem hasUniform_lightDataUniform (hpublic : shader.publicUniforms.HasIdentifiers)
    (hprivate : shader.privateUniforms.HasIdentifiers) (hroom : shader.maxLights ≤ 2 ^ 64)
    (index : Nat) (field : String) :
    shader.hasUniform (lightDataUniform index field) = shader.hasLightField index field := by
  unfold hasUniform
  rw [contains_lightDataUniform hpublic, contains_lightDataUniform hprivate, Bool.false_or,
    Bool.false_or, parse_lightDataUniform]
  split
  · rfl
  · rename_i hlarge
    rw [Option.any_none, hasLightField, lightField?, if_neg (by omega)]
    rfl

theorem hasLightField_iff : shader.hasLightField index field = true ↔
    index < shader.maxLights ∧ shader.lightData.contains field = true := by
  unfold hasLightField lightField?
  split
  · rename_i hlt
    exact (and_iff_right hlt).symm
  · rename_i hlt
    exact ⟨nofun, fun h => absurd h.1 hlt⟩

end GeneratedShader

/-- What is declared in a generated shader has an identifier as its name. -/
theorem generate_hasIdentifiers {g : ShaderGenerator} {d : Document} {files : FileTree}
    {path : String} {options : GeneratorOptions} {shader : GeneratedShader}
    (h : g.generate d files path options = .ok shader) :
    shader.publicUniforms.HasIdentifiers ∧ shader.privateUniforms.HasIdentifiers := by
  obtain ⟨graph, root, nodes, final, parts, hgraph, -, hparts, rfl⟩ := generate_parts h
  refine ⟨?_, ?_⟩
  · intro v hv c hc
    have hdeclared : (graph.uniforms.get? v.name).isSome = true :=
      List.find?_isSome.2 ⟨v, hv, by simp⟩
    obtain ⟨w, hw⟩ := Option.isSome_iff_exists.1 hdeclared
    exact Graph.isIdentifierChar_of_mem_uniforms hgraph hw hc
  · exact parts_hasIdentifiers hparts

/-- The uniforms of a generated shader that can be edited have different names. -/
theorem generate_nodup_names {g : ShaderGenerator} {d : Document} {files : FileTree}
    {path : String} {options : GeneratorOptions} {shader : GeneratedShader}
    (h : g.generate d files path options = .ok shader) : shader.publicUniforms.names.Nodup := by
  obtain ⟨graph, root, nodes, final, parts, hgraph, -, -, rfl⟩ := generate_parts h
  exact Graph.nodup_names_uniforms hgraph

/-- The room for lights of a generated shader is in the range of the options. -/
theorem maxLights_le {g : ShaderGenerator} {d : Document} {files : FileTree}
    {path : String} {options : GeneratorOptions} {shader : GeneratedShader}
    (h : g.generate d files path options = .ok shader) :
    shader.maxLights ≤ max options.maxLights 1 := by
  obtain ⟨graph, root, nodes, final, parts, -, -, hparts, rfl⟩ := generate_parts h
  obtain ⟨-, hmax⟩ := parts_lights hparts
  show parts.maxLights ≤ _
  rw [hmax]
  split
  · exact Nat.le_refl _
  · exact Nat.zero_le _

end MaterialViewer
