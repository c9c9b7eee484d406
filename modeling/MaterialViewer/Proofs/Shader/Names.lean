import MaterialViewer.Proofs.Graph.Names
import MaterialViewer.Proofs.Graph.Uniforms
import MaterialViewer.Proofs.Shader.Parts

/-!
# Proofs: the names in a pixel stage

The source of a pixel stage declares names of three origins: some are fixed, some are made for the
public parameters, and some for the outputs of nodes. The fixed ones and those of outputs cannot be
taken for each other, as the names of outputs have an ending of their own. Names of parameters have
no such mark: the builder sees to it that names of nodes differ, but not that the name of a
parameter differs from all others. All names are identifiers, except what is declared for a node
`gl` and the parameter `major` of a node `row`.
-/

namespace MaterialViewer

/-! ## Declared names -/

/-- The words with an underscore that the shading language reserves. Its other reserved words have
no counterpart here, as all names made for a document have an underscore. -/
def Glsl.reservedWords : List String := ["row_major"]

theorem ShaderVariable.declaration?_isSome (v : ShaderVariable) :
    v.declaration?.isSome = Glsl.isShaderType v.type := Option.isSome_map

namespace ShaderParts

/-- The names of the variables that a block declares: shaders know their types. -/
def declaredIn (block : VariableBlock) : List String :=
  (block.entries.filter fun v => v.declaration?.isSome).map (·.name)

/-- The names in the pixel stage that do not depend on the document: private uniforms, the data of
lights, the function that evaluates lights, the block of varyings, and the color. -/
def fixedNames (p : ShaderParts) : List String :=
  declaredIn p.pixelUniforms ++
    (if p.maxLights = 0 then [] else [Uniforms.lightData, "sampleLightSource"]) ++
    (if p.varyings.entries.isEmpty then [] else [Varying.block]) ++ [Glsl.outputColor]

/-- The names that the pixel stage declares at global scope or in its main function. -/
def declaredNames (p : ShaderParts) : List String :=
  p.fixedNames ++ declaredIn p.publicUniforms ++ declaredBy p.pixelBody

/-- The names that the pixel stage declares are identifiers, and no two of them are the same. -/
structure DeclaresApart (p : ShaderParts) : Prop where
  nodup : p.declaredNames.Nodup
  identifier : ∀ name ∈ p.declaredNames, Glsl.IsIdentifier name ∧ name ∉ Glsl.reservedWords

/-- All names that are fixed. -/
def allFixedNames : List String :=
  [Uniforms.viewPosition, Uniforms.activeLights, Uniforms.envRadiance, Uniforms.envRadianceMips,
    Uniforms.envSamples, Uniforms.envIrradiance, Uniforms.lightData, "sampleLightSource",
    Varying.block, Glsl.outputColor]

theorem nodup_allFixedNames : allFixedNames.Nodup := by decide +kernel

theorem allFixedNames_identifier :
    ∀ name ∈ allFixedNames, Glsl.IsIdentifier name ∧ name ∉ Glsl.reservedWords := by
  decide +kernel

/-- No fixed name is one of the main function. -/
theorem allFixedNames_main : ∀ name ∈ allFixedNames,
    name ≠ "outAlpha" ∧ ¬ "_out".toList <:+ name.toList := by decide +kernel

variable {p : ShaderParts} {options : GeneratorOptions} {g : ShaderGraph} {nodes : List ShaderNode}
  {isLit : Bool}

theorem fixedNames_sublist (h : p.MadeFor options g nodes isLit) :
    p.fixedNames.Sublist allFixedNames := by
  have huniforms : (declaredIn p.pixelUniforms).Sublist
      (if isLit then [Uniforms.viewPosition, Uniforms.activeLights, Uniforms.envRadiance,
        Uniforms.envRadianceMips, Uniforms.envSamples, Uniforms.envIrradiance] else []) := by
    rw [h.pixelUniforms]
    cases isLit with
    | false => exact List.Sublist.refl _
    | true => cases options.environment <;> decide
  have hlights : (if p.maxLights = 0 then [] else [Uniforms.lightData, "sampleLightSource"]).Sublist
      [Uniforms.lightData, "sampleLightSource"] := by
    split
    · exact List.nil_sublist _
    · exact List.Sublist.refl _
  have hblock : (if p.varyings.entries.isEmpty then [] else [Varying.block]).Sublist
      [Varying.block] := by
    split
    · exact List.nil_sublist _
    · exact List.Sublist.refl _
  have hall := ((huniforms.append hlights).append hblock).append
    (List.Sublist.refl [Glsl.outputColor])
  refine hall.trans ?_
  cases isLit <;> decide

end ShaderParts

/-! ## The names of outputs -/

section Main

variable {g : ShaderGraph} {transparency : Bool} {body : List Statement}

/-- The main function declares the outputs of the nodes that the root reaches, if these declare
them, and possibly `outAlpha`. -/
theorem MainBody.mem_declaredBy (main : MainBody g transparency body) {name : String}
    (h : name ∈ declaredBy body) : name = "outAlpha" ∨
      ∃ i n, g.Reaches i ∧ g.nodes[i]? = some n ∧ n.DeclaresOutput ∧ name = n.outputVariable := by
  obtain ⟨s, hs, hname⟩ := MaterialViewer.mem_declaredBy.mp h
  rw [main.body_eq] at hs
  rcases List.mem_append.mp hs with hs | hs
  · obtain ⟨i, hi, hs⟩ := List.mem_flatMap.mp hs
    obtain ⟨n, hn, -⟩ := main.own i hi
    have hmem : name ∈ declaredBy (g.ownStatements i) :=
      MaterialViewer.mem_declaredBy.mpr ⟨s, hs, hname⟩
    rcases main.declared_own hi hn with ⟨hdeclares, hown⟩ | ⟨-, hown⟩
    · rw [hown] at hmem
      exact .inr ⟨i, n, (main.sorted.mem_iff i).mp hi, hn, hdeclares, List.mem_singleton.mp hmem⟩
    · rw [hown] at hmem
      cases hmem
  · obtain ⟨⟨-, hfinal⟩, -⟩ := finalStatements?_spec main.isFinal
    have hmem := hfinal.subset (MaterialViewer.mem_declaredBy.mpr ⟨s, hs, hname⟩)
    exact .inl (List.mem_singleton.mp hmem)

theorem MainBody.outputVariable_mem (main : MainBody g transparency body) {i : Nat}
    {n : ShaderNode} (hi : g.Reaches i) (hn : g.nodes[i]? = some n) (hdeclares : n.DeclaresOutput) :
    n.outputVariable ∈ declaredBy body := by
  have hi := (main.sorted.mem_iff i).mpr hi
  rw [main.body_eq, declaredBy, List.filterMap_append]
  refine List.mem_append_left _ ?_
  rcases main.declared_own hi hn with ⟨-, hown⟩ | ⟨hnot, -⟩
  · obtain ⟨s, hs, hname⟩ :=
      MaterialViewer.mem_declaredBy.mp (hown ▸ List.mem_singleton_self n.outputVariable)
    exact List.mem_filterMap.mpr ⟨s, List.mem_flatMap.mpr ⟨i, hi, hs⟩, hname⟩
  · exact absurd hdeclares hnot

theorem outputVariable_suffix (n : ShaderNode) : "_out".toList <:+ n.outputVariable.toList := by
  rw [ShaderNode.outputVariable, String.toList_append]
  exact List.suffix_append _ _

theorem outputVariable_not_reserved (n : ShaderNode) :
    n.outputVariable ∉ Glsl.reservedWords := by
  have hreserved : ∀ word ∈ Glsl.reservedWords, ¬ "_out".toList <:+ word.toList := by decide
  exact fun h => hreserved _ h (outputVariable_suffix n)

/-- The output of a node with an identifier as its name has one, unless the node is `gl`. -/
theorem isIdentifier_outputVariable {n : ShaderNode} (h : Glsl.IsIdentifier n.name) :
    Glsl.IsIdentifier n.outputVariable ↔ n.name ≠ "gl" := by
  have hsplit : n.outputVariable = n.name ++ "_" ++ "out" := by
    rw [String.append_assoc]
    rfl
  rw [hsplit]
  exact h.append_underscore (List.all_eq_true.mp (by decide))

end Main

/-! ## The names of parameters -/

namespace Graph

/-- The uniform of a parameter has the name of the output of a node: the name of the node of the
parameter is the beginning of its name, and the input is called after the rest and `out`. -/
def Parameter.TakesOutput (p : Parameter) (n : ShaderNode) : Prop :=
  ∃ rest, n.name = p.nodeName ++ rest ∧ "_" ++ Glsl.identifier p.inputName = rest ++ "_out"

variable {r : Request} {path : String} {b : Build} {root depth : Nat} {p : Parameter}

theorem uniformName_eq_outputVariable_iff {n : ShaderNode} :
    p.uniformName = n.outputVariable ↔ p.TakesOutput n := by
  constructor
  · intro h
    have hlist : p.nodeName.toList ++ ("_" ++ Glsl.identifier p.inputName).toList =
        n.name.toList ++ "_out".toList := by
      rw [← String.toList_append, ← String.toList_append, ← String.append_assoc]
      exact congrArg String.toList h
    rcases List.append_eq_append_iff.mp hlist with ⟨rest, hname, hinput⟩ | ⟨rest, hname, hinput⟩
    · have htext : (String.ofList rest).toList = rest := String.toList_ofList
      refine ⟨String.ofList rest, String.toList_injective ?_, String.toList_injective ?_⟩
      · rw [hname, String.toList_append, htext]
      · rw [hinput, String.toList_append, htext]
    · -- `out` has no underscore, so the name of the node of the parameter is not longer
      cases rest with
      | nil =>
        refine ⟨"", String.toList_injective ?_, String.toList_injective ?_⟩
        · rw [String.append_empty, hname, List.append_nil]
        · rw [List.nil_append] at hinput
          rw [String.empty_append, hinput]
      | cons c rest =>
        rw [String.toList_append] at hinput
        have hcons : '_' :: ['o', 'u', 't'] =
            c :: (rest ++ '_' :: (Glsl.identifier p.inputName).toList) := hinput
        have hmem : '_' ∈ ['o', 'u', 't'] := by
          rw [(List.cons.inj hcons).2]
          simp
        exact absurd hmem (by decide)
  · rintro ⟨rest, hname, hinput⟩
    rw [Parameter.uniformName, ShaderNode.outputVariable, hname, String.append_assoc, hinput,
      String.append_assoc]

theorem uniformName_ne_outAlpha (p : Parameter) : p.uniformName ≠ "outAlpha" := by
  intro h
  have hmem : '_' ∈ p.uniformName.toList := by
    simp [Parameter.uniformName, String.toList_append]
  rw [h] at hmem
  exact absurd hmem (by decide)

/-- The name of a uniform is an identifier, unless the node of the parameter is `gl`. -/
theorem isIdentifier_uniformName (h : Glsl.IsIdentifier p.nodeName) :
    Glsl.IsIdentifier p.uniformName ↔ p.nodeName ≠ "gl" :=
  h.append_underscore (Glsl.isIdentifier_identifier p.inputName).chars

/-- Shaders know the types of public uniforms. -/
theorem Declarable.isShaderType (h : Declarable b) :
    ∀ v ∈ b.uniforms.entries, Glsl.isShaderType v.type = true := by
  intro v hv
  rcases VariableBlock.mem_of_mem_addAll hv with hv | hv
  · cases hv
  · obtain ⟨p, hp, rfl⟩ := List.mem_map.mp hv
    exact h.type p hp

/-- All public uniforms are declared, as shaders know their types. -/
theorem declaredIn_uniforms (h : Declarable b) :
    ShaderParts.declaredIn b.uniforms = b.uniforms.names := by
  have htype : ∀ v ∈ b.uniforms.entries, v.declaration?.isSome :=
    fun v hv => v.declaration?_isSome.trans (h.isShaderType v hv)
  rw [ShaderParts.declaredIn, List.filter_eq_self.mpr htype, VariableBlock.names]

/-- The names of public uniforms are those that parameters ask for. -/
theorem mem_names_uniforms {name : String} :
    name ∈ b.uniforms.names ↔ ∃ p ∈ b.parameters, p.uniformName = name := by
  have hnothing : name ∉ VariableBlock.names {} := nofun
  rw [Build.uniforms, VariableBlock.mem_names_addAll, or_iff_right hnothing]
  simp only [List.mem_map, exists_exists_and_eq_and]
  rfl

end Graph

/-! ## All names together -/

/-- The names made for parameters differ from the fixed ones and from those of outputs, nothing is
made for a node `gl`, and no parameter is named by a reserved word. -/
structure NamesApart (fixed : List String) (g : ShaderGraph) (parameters : List Graph.Parameter) :
    Prop where
  fixed : ∀ p ∈ parameters, p.uniformName ∉ fixed
  output : ∀ p ∈ parameters, ∀ i n, g.Reaches i → g.nodes[i]? = some n → n.DeclaresOutput →
    ¬ p.TakesOutput n
  parameter : ∀ p ∈ parameters, p.nodeName ≠ "gl"
  node : ∀ i n, g.Reaches i → g.nodes[i]? = some n → n.DeclaresOutput → n.name ≠ "gl"
  reserved : ∀ p ∈ parameters, p.uniformName ∉ Glsl.reservedWords

section Pixel

variable {options : GeneratorOptions} {isLit : Bool} {nodes : List ShaderNode} {b : Graph.Build}
  {root : Nat} {path : String} {p : ShaderParts}

theorem ShaderParts.MadeFor.declaredNames_eq
    (hmade : p.MadeFor options (b.graph path root) nodes isLit) (hdeclarable : Graph.Declarable b) :
    p.declaredNames = p.fixedNames ++ b.uniforms.names ++ declaredBy p.pixelBody := by
  have huniforms : declaredIn p.publicUniforms = b.uniforms.names := by
    rw [hmade.publicUniforms]
    exact Graph.declaredIn_uniforms hdeclarable
  rw [declaredNames, huniforms]

theorem ShaderParts.DeclaresApart.namesApart (h : p.DeclaresApart)
    (hmade : p.MadeFor options (b.graph path root) nodes isLit)
    (main : MainBody (b.graph path root) options.transparency p.pixelBody)
    (hsound : Graph.Sound b) (hdeclarable : Graph.Declarable b) :
    NamesApart p.fixedNames (b.graph path root) b.parameters := by
  obtain ⟨hnodup, hidentifier⟩ := h
  rw [hmade.declaredNames_eq hdeclarable] at hnodup hidentifier
  obtain ⟨hfront, -, hmain⟩ := List.nodup_append.mp hnodup
  obtain ⟨-, -, hfixed⟩ := List.nodup_append.mp hfront
  have huniform : ∀ q ∈ b.parameters, q.uniformName ∈ b.uniforms.names :=
    fun q hq => Graph.mem_names_uniforms.mpr ⟨q, hq, rfl⟩
  have hdeclared : ∀ q ∈ b.parameters, _ := fun q hq =>
    hidentifier q.uniformName (List.mem_append_left _ (List.mem_append_right _ (huniform q hq)))
  refine ⟨fun q hq hmem => hfixed _ hmem _ (huniform q hq) rfl,
    fun q hq i n hi hn hn' htakes => ?_, fun q hq => ?_, fun i n hi hn hn' => ?_,
    fun q hq => (hdeclared q hq).2⟩
  · exact hmain _ (List.mem_append_right _ (huniform q hq)) _ (main.outputVariable_mem hi hn hn')
      (Graph.uniformName_eq_outputVariable_iff.mpr htakes)
  · exact (Graph.isIdentifier_uniformName
      (hdeclarable.identifier _ (hsound.parameter_named q hq))).mp (hdeclared q hq).1
  · have hnamed := hsound.node_named n (List.mem_of_getElem? hn)
    exact (isIdentifier_outputVariable (hdeclarable.identifier _ hnamed)).mp
      (hidentifier _ (List.mem_append_right _ (main.outputVariable_mem hi hn hn'))).1

theorem NamesApart.declaresApart
    (h : NamesApart p.fixedNames (b.graph path root) b.parameters)
    (hmade : p.MadeFor options (b.graph path root) nodes isLit)
    (main : MainBody (b.graph path root) options.transparency p.pixelBody)
    (hsound : Graph.Sound b) (hdeclarable : Graph.Declarable b) : p.DeclaresApart := by
  have hfixed := ShaderParts.fixedNames_sublist hmade
  have hmain : ∀ name ∈ declaredBy p.pixelBody, name ∉ p.fixedNames := by
    intro name hname hmem
    obtain ⟨halpha, hsuffix⟩ := ShaderParts.allFixedNames_main name (hfixed.subset hmem)
    rcases main.mem_declaredBy hname with rfl | ⟨i, n, -, -, -, rfl⟩
    · exact halpha rfl
    · exact hsuffix (outputVariable_suffix n)
  constructor
  · rw [hmade.declaredNames_eq hdeclarable]
    refine List.nodup_append.mpr ⟨List.nodup_append.mpr
      ⟨ShaderParts.nodup_allFixedNames.sublist hfixed, ?_, ?_⟩, main.declaredBy_nodup, ?_⟩
    · have hnothing : VariableBlock.names {} = [] := rfl
      exact VariableBlock.nodup_names_addAll (hnothing ▸ List.nodup_nil) _
    · rintro name hname _ huniform rfl
      obtain ⟨q, hq, rfl⟩ := Graph.mem_names_uniforms.mp huniform
      exact h.fixed q hq hname
    · rintro name hname _ hbody rfl
      rcases List.mem_append.mp hname with hname | hname
      · exact hmain name hbody hname
      · obtain ⟨q, hq, rfl⟩ := Graph.mem_names_uniforms.mp hname
        rcases main.mem_declaredBy hbody with halpha | ⟨i, n, hi, hn, hdeclares, heq⟩
        · exact Graph.uniformName_ne_outAlpha q halpha
        · exact h.output q hq i n hi hn hdeclares (Graph.uniformName_eq_outputVariable_iff.mp heq)
  · intro name hname
    rw [hmade.declaredNames_eq hdeclarable] at hname
    rcases List.mem_append.mp hname with hname | hbody
    · rcases List.mem_append.mp hname with hname | hname
      · exact ShaderParts.allFixedNames_identifier name (hfixed.subset hname)
      · obtain ⟨q, hq, rfl⟩ := Graph.mem_names_uniforms.mp hname
        have hnamed := hdeclarable.identifier _ (hsound.parameter_named q hq)
        exact ⟨(Graph.isIdentifier_uniformName hnamed).mpr (h.parameter q hq), h.reserved q hq⟩
    · rcases main.mem_declaredBy hbody with rfl | ⟨i, n, hi, hn, hdeclares, rfl⟩
      · decide
      · have hnamed := hsound.node_named n (List.mem_of_getElem? hn)
        exact ⟨(isIdentifier_outputVariable (hdeclarable.identifier _ hnamed)).mpr
          (h.node i n hi hn hdeclares), outputVariable_not_reserved n⟩

end Pixel

/-- A generated shader is made of the parts for what is built for its element. -/
theorem generate_built {gen : ShaderGenerator} {d : Document} {files : FileTree} {path : String}
    {options : GeneratorOptions} {shader : GeneratedShader}
    (h : gen.generate d files path options = .ok shader) :
    ∃ (root : Nat) (b : Graph.Build) (parts : ShaderParts),
      Graph.buildWithin ⟨d, options, gen.registry⟩ (Graph.depthBound d) path = .ok (root, b) ∧
      Nonempty (MainBody (b.graph path root) options.transparency parts.pixelBody) ∧
      (∃ nodes final isLit,
        gen.parts d files options (b.graph path root) nodes final isLit = .ok parts) ∧
      shader.pixelSource = parts.pixelSource := by
  obtain ⟨g, parts, hbuild, main, hparts, rfl⟩ := generate_main h
  obtain ⟨⟨root, b⟩, hrun, rfl⟩ := Graph.map_ok.mp hbuild
  exact ⟨root, b, parts, hrun, ⟨main⟩, ⟨_, _, _, hparts⟩, rfl⟩

/-- The pixel source of a generated shader declares its names apart, as identifiers, exactly if the
names made for the parameters of its graph are apart from all others. -/
theorem generate_declaresApart_iff {gen : ShaderGenerator} {d : Document} {files : FileTree}
    {path : String} {options : GeneratorOptions} {shader : GeneratedShader}
    (h : gen.generate d files path options = .ok shader) :
    ∃ (root : Nat) (b : Graph.Build) (parts : ShaderParts),
      Graph.buildWithin ⟨d, options, gen.registry⟩ (Graph.depthBound d) path = .ok (root, b) ∧
      Nonempty (MainBody (b.graph path root) options.transparency parts.pixelBody) ∧
      (∃ nodes final isLit,
        gen.parts d files options (b.graph path root) nodes final isLit = .ok parts) ∧
      shader.pixelSource = parts.pixelSource ∧
      (parts.DeclaresApart ↔ NamesApart parts.fixedNames (b.graph path root) b.parameters) := by
  obtain ⟨root, b, parts, hrun, ⟨main⟩, ⟨nodes, final, isLit, hparts⟩, hsource⟩ := generate_built h
  have hmade := parts_madeFor hparts
  obtain ⟨hsound, -⟩ := Graph.buildWithin_sound hrun
  have hdeclarable := Graph.buildWithin_declarable hrun
  exact ⟨root, b, parts, hrun, ⟨main⟩, ⟨nodes, final, isLit, hparts⟩, hsource,
    fun happart => happart.namesApart hmade main hsound hdeclarable,
    fun hnames => hnames.declaresApart hmade main hsound hdeclarable⟩

/-- A node `out` with an input `color`. -/
def Graph.Sample.tint : Request :=
  request
    [definition "tone" "float" [input "color" "float" [("value", "0.5")]],
      implementation "tone" "\x7b\x7bcolor\x7d\x7d", node "tone" "out" "float" []]

/-- The shader for this node. -/
def tintShader : Except GenerationError GeneratedShader :=
  ({} : ShaderGenerator).generate Graph.Sample.tint.document (.empty []) "out" {}

theorem generate_declaresApart_iff_tint : ∃ shader, tintShader = .ok shader ∧
    ∃ (root : Nat) (b : Graph.Build) (parts : ShaderParts),
      Graph.buildWithin Graph.Sample.tint (Graph.depthBound Graph.Sample.tint.document) "out" =
        .ok (root, b) ∧
      Nonempty (MainBody (b.graph "out" root) false parts.pixelBody) ∧
      (∃ nodes final isLit, ({} : ShaderGenerator).parts Graph.Sample.tint.document (.empty []) {}
        (b.graph "out" root) nodes final isLit = .ok parts) ∧
      shader.pixelSource = parts.pixelSource ∧
      (parts.DeclaresApart ↔ NamesApart parts.fixedNames (b.graph "out" root) b.parameters) := by
  have heval : tintShader.toOption.map (·.name) = some "out" := by decide +kernel
  obtain ⟨shader, hshader, -⟩ := Graph.Sample.exists_ok_of_map heval
  exact ⟨shader, hshader, generate_declaresApart_iff hshader⟩

/-- The uniform of the parameter has the name of the output of the stage. -/
theorem not_declaresApart_tint : ∃ shader, tintShader = .ok shader ∧
    ∃ (root : Nat) (b : Graph.Build) (parts : ShaderParts),
      Graph.buildWithin Graph.Sample.tint (Graph.depthBound Graph.Sample.tint.document) "out" =
        .ok (root, b) ∧
      Nonempty (MainBody (b.graph "out" root) false parts.pixelBody) ∧
      (∃ nodes final isLit, ({} : ShaderGenerator).parts Graph.Sample.tint.document (.empty []) {}
        (b.graph "out" root) nodes final isLit = .ok parts) ∧
      shader.pixelSource = parts.pixelSource ∧ ¬ parts.DeclaresApart := by
  have heval : tintShader.toOption.map (·.name) = some "out" := by decide +kernel
  obtain ⟨shader, hshader, -⟩ := Graph.Sample.exists_ok_of_map heval
  obtain ⟨root, b, parts, hrun, ⟨main⟩, ⟨nodes, final, isLit, hparts⟩, hsource⟩ :=
    generate_built hshader
  refine ⟨shader, hshader, root, b, parts, hrun, ⟨main⟩, ⟨nodes, final, isLit, hparts⟩, hsource,
    fun happart => ?_⟩
  obtain ⟨hsound, -⟩ := Graph.buildWithin_sound hrun
  have hnames := happart.namesApart (parts_madeFor hparts) main hsound
    (Graph.buildWithin_declarable hrun)
  have hbuild : (Graph.buildWithin Graph.Sample.tint
      (Graph.depthBound Graph.Sample.tint.document) "out").toOption.map
      (fun result => result.2.parameters.map (·.uniformName)) = some ["out_color"] := by
    decide +kernel
  obtain ⟨result, hresult, hview⟩ := Graph.Sample.exists_ok_of_map hbuild
  obtain rfl : result = (root, b) := Except.ok.inj (hresult.symm.trans hrun)
  obtain ⟨p, hp, hname⟩ := List.mem_map.mp (hview ▸ List.mem_cons_self ..)
  refine hnames.fixed p hp ?_
  rw [hname]
  exact List.mem_append_right _ (List.mem_singleton_self Glsl.outputColor)

end MaterialViewer
