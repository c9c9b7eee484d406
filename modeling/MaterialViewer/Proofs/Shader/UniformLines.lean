import MaterialViewer.Proofs.Shader.Sections

/-!
# Proofs: uniforms as the sources declare them

A generated shader tells its uniforms besides its sources: the public ones, the private ones of both
stages, and the fields of the data of lights. These are the uniforms and the fields that the generator
declares in the two sources. Files are taken over as they are, and so are the names and the code of
implementations, which may declare anything.
-/

namespace MaterialViewer

open CodeBuffer

/-! ## Parts of a shader -/

/-- Shaders know the types of all variables of a block. -/
def VariableBlock.HasKnownTypes (block : VariableBlock) : Prop :=
  ∀ v ∈ block.entries, Glsl.isShaderType v.type = true

theorem ShaderVariable.exists_inCode {v : ShaderVariable} (h : Glsl.isShaderType v.type = true)
    (initializer? : Option String) :
    ∃ u, v.inCode? initializer? = some u ∧ u.name = v.name := by
  obtain ⟨type, htype⟩ := Option.isSome_iff_exists.mp h
  exact ⟨⟨type, v.name, initializer?⟩, by rw [inCode?, htype]; rfl, rfl⟩

section Parts

variable {p : ShaderParts} {isLit : Bool} {name : String}

theorem VariableBlock.HasIdentifiers.of_names {block block' : VariableBlock}
    (h : block.HasIdentifiers) (hnames : ∀ name ∈ block'.names, name ∈ block.names) :
    block'.HasIdentifiers := by
  intro v hv
  obtain ⟨w, hw, hname⟩ := List.mem_map.mp (hnames v.name (List.mem_map_of_mem hv))
  exact hname ▸ h w hw

/-- The private uniforms are those of the two stages, and the data of lights. -/
theorem ShaderParts.mem_names_privateUniforms :
    name ∈ (p.privateUniforms isLit).names ↔ name ∈ p.vertexUniforms.names ∨
      name ∈ p.pixelUniforms.names ∨ (isLit ∧ name = Uniforms.lightData) := by
  have hnothing : name ∉ VariableBlock.names {} := nofun
  have hboth : name ∈ ((VariableBlock.addAll {} p.vertexUniforms.entries).addAll
      p.pixelUniforms.entries).names ↔
      name ∈ p.vertexUniforms.names ∨ name ∈ p.pixelUniforms.names := by
    rw [VariableBlock.mem_names_addAll, VariableBlock.mem_names_addAll, or_iff_right hnothing]
    simp only [VariableBlock.names, List.mem_map]
  unfold privateUniforms
  cases isLit with
  | false => simpa using hboth
  | true =>
    show name ∈ (VariableBlock.addAll (VariableBlock.addAll _ _)
      [{ name := Uniforms.lightData, type := .custom "LightData" }]).names ↔ _
    rw [VariableBlock.mem_names_addAll, hboth, or_assoc]
    simp [eq_comm]

theorem lightingUniforms_known (method : EnvironmentMethod) :
    VariableBlock.HasKnownTypes ⟨lightingUniforms method⟩ := by
  unfold VariableBlock.HasKnownTypes
  cases method <;> decide

/-- The fields of the data of lights have identifiers as names, and types that shaders know. -/
theorem LightKinds.fields_known (k : LightKinds) (d : Document) :
    (k.fields d).HasIdentifiers ∧ (k.fields d).HasKnownTypes := by
  have hfield : ∀ v ∈ (k.fields d).entries, (∀ c ∈ v.name.toList, Glsl.isIdentifierChar c = true) ∧
      Glsl.isShaderType v.type = true := by
    intro v hv
    rcases VariableBlock.mem_of_mem_addAll hv with hv | hv
    · obtain rfl := List.mem_singleton.mp hv
      exact ⟨List.all_eq_true.mp (by decide), rfl⟩
    · obtain ⟨input, -, hinput⟩ := List.mem_filterMap.mp hv
      unfold field? at hinput
      dsimp only at hinput
      split at hinput
      · rename_i htype
        obtain rfl := Option.some.inj hinput
        simp only [isFieldType, Bool.and_eq_true] at htype
        exact ⟨(Glsl.isIdentifier_identifier input.name).chars, htype.1.1⟩
      · cases hinput
  exact ⟨fun v hv => (hfield v hv).1, fun v hv => (hfield v hv).2⟩

theorem parts_lightData_known {gen : ShaderGenerator} {d : Document} {files : FileTree}
    {options : GeneratorOptions} {graph : ShaderGraph} {nodes : List ShaderNode}
    {final : List Statement} {parts : ShaderParts}
    (h : gen.parts d files options graph nodes final isLit = .ok parts) :
    parts.lightData.HasIdentifiers ∧ parts.lightData.HasKnownTypes := by
  rw [(parts_lights h).1]
  cases isLit with
  | false => exact ⟨List.forall_mem_nil _, List.forall_mem_nil _⟩
  | true => exact gen.lights.fields_known d

end Parts

/-! ## The source of the pixel stage -/

section Pixel

variable {d : Document} {files : FileTree} {searchPath : SearchPath} {fields : VariableBlock}

theorem ownLines_lines (lines : List String) : ownLines (lines.map .line) = lines := by
  simp [ownLines, List.filterMap_map, Function.comp_def, Emitted.own?]

theorem LightKinds.isPlain_fieldLines (hnames : fields.HasIdentifiers) :
    ∀ line ∈ fieldLines fields, IsPlain line := by
  intro line hline
  obtain ⟨v, hv, hline⟩ := List.mem_filterMap.mp hline
  obtain ⟨text, htext, rfl⟩ := Option.map_eq_some_iff.mp hline
  have hplain := ShaderParts.isPlain_of_declaration? (oneLine_of_identifier (hnames v hv)) htext
  rw [String.append_assoc]
  exact hplain.indent 1

theorem LightKinds.dataLines_written (hnames : fields.HasIdentifiers) :
    WrittenAs d files searchPath (blockText (declarations fields) ++ "\n")
      ((dataLines fields).map .line) := by
  refine ⟨textOf_dataLines fields, List.forall_mem_map.mpr ?_⟩
  have hfields : ∀ line ∈ fieldLines fields, OneLine line :=
    fun line hline => (isPlain_fieldLines hnames line hline).oneLine
  have hrest : ∀ line ∈ ["\x7d;", "", arrayLine, ""], OneLine line := by decide
  have hopening : ∀ line ∈ [opening, "\x7b"], OneLine line := by decide
  exact List.forall_mem_append.mpr ⟨hopening, List.forall_mem_append.mpr ⟨hfields, hrest⟩⟩

theorem LightKinds.uniformsOf_dataLines (hnames : fields.HasIdentifiers) :
    uniformsOf ((dataLines fields).map .line) = [⟨"LightData", Uniforms.lightData, none⟩] := by
  have hopening : [opening, "\x7b"].filterMap uniformOf? = [] := by decide
  have hfields : (fieldLines fields).filterMap uniformOf? = [] :=
    List.filterMap_eq_nil_iff.mpr fun line hline => (isPlain_fieldLines hnames line hline).uniform
  have hrest : ["\x7d;", "", arrayLine, ""].filterMap uniformOf? =
      [⟨"LightData", Uniforms.lightData, none⟩] := by decide
  have hlines : dataLines fields =
      [opening, "\x7b"] ++ (fieldLines fields ++ ["\x7d;", "", arrayLine, ""]) := rfl
  rw [uniformsOf, ownLines_lines, hlines, List.filterMap_append, List.filterMap_append, hopening,
    hfields, hrest]
  rfl

variable {p : ShaderParts} {options : GeneratorOptions} {g : ShaderGraph} {nodes : List ShaderNode}
  {isLit : Bool}

/-- The pixel stage declares its private uniforms, the public ones, and the data of lights, in which
the fields are read. -/
theorem ShaderParts.MadeFor.pixelSource_written (h : p.MadeFor options g nodes isLit)
    (hprivate : p.pixelUniforms.HasIdentifiers) (hpublic : p.publicUniforms.HasIdentifiers)
    (hlights : p.lightData.HasIdentifiers)
    (hfunctions : p.functions.IsWritten d files searchPath)
    (hbody : ∀ s ∈ p.pixelBody, s.IsWritten d files searchPath) :
    ∃ pixel, WrittenAs d files searchPath p.pixelSource pixel ∧
      uniformsOf pixel = p.pixelUniforms.entries.filterMap (·.inCode? none) ++
        p.publicUniforms.entries.filterMap (fun v => v.inCode? (v.value?.bind Glsl.literal?)) ++
        (if p.maxLights = 0 then [] else [⟨"LightData", Uniforms.lightData, none⟩]) ∧
      lightFieldsOf (ownLines pixel) =
        if p.maxLights = 0 then [] else p.lightData.entries.filterMap (·.inCode? none) := by
  have hprivateText : Emits d files searchPath
      (uniformsText 0 "PrivateUniforms" p.pixelUniforms (·.declaration?))
      (p.pixelUniforms.entries.filterMap (·.inCode? none)) :=
    privateText_emits (by decide) hprivate
  have hpublicText : Emits d files searchPath
      (uniformsText 0 "PublicUniforms" p.publicUniforms (·.initializedDeclaration?))
      (p.publicUniforms.entries.filterMap fun v => v.inCode? (v.value?.bind Glsl.literal?)) :=
    publicText_emits (by decide) hpublic
  have hvaryings : Emits d files searchPath (varyingsText 0 "in" p.varyings) [] :=
    varyingsText_emits (by decide) h.oneLine_varyings
  obtain ⟨front, hfront, hfrontUniforms, hfrontLines⟩ :=
    ((pixelHead_emits p).append hprivateText).append hpublicText
  obtain ⟨back, hback, hbackUniforms, hbackLines⟩ :=
    ((hvaryings.append_plain outputText_emits).append_plain hfunctions).append_plain
      (mainText_emits hbody)
  rw [pixelSource_eq, lightsText]
  by_cases hlit : p.maxLights = 0
  · refine ⟨front ++ back, ?_, ?_, ?_⟩
    · simpa only [if_pos hlit, String.append_empty, String.append_assoc] using hfront.append hback
    · rw [uniformsOf_append, hfrontUniforms, hbackUniforms, if_pos hlit, List.nil_append]
    · rw [if_pos hlit, ownLines_append]
      refine LightKinds.lightFieldsOf_eq_nil fun hmem => ?_
      rcases List.mem_append.mp hmem with hmem | hmem
      · exact hfrontLines hmem
      · exact hbackLines hmem
  · have hdata : WrittenAs d files searchPath
        (blockText (LightKinds.declarations p.lightData) ++ "\n") _ :=
      LightKinds.dataLines_written hlights
    refine ⟨front ++ ((LightKinds.dataLines p.lightData).map .line ++ back), ?_, ?_, ?_⟩
    · simpa only [if_neg hlit, String.append_assoc] using hfront.append (hdata.append hback)
    · rw [uniformsOf_append, uniformsOf_append, hfrontUniforms, hbackUniforms,
        LightKinds.uniformsOf_dataLines hlights, if_neg hlit, List.nil_append, List.append_nil]
    · rw [if_neg hlit, ownLines_append, ownLines_append, ownLines_lines]
      exact LightKinds.lightFieldsOf_append hfrontLines hlights

end Pixel

/-! ## The sources of a generated shader -/

theorem names_inCode {block : VariableBlock} (initializer? : ShaderVariable → Option String)
    (htypes : block.HasKnownTypes) :
    (block.entries.filterMap fun v => v.inCode? (initializer? v)).map (·.name) = block.names := by
  rw [List.map_filterMap, VariableBlock.names, ← List.filterMap_eq_map]
  refine List.filterMap_congr fun v hv => ?_
  obtain ⟨u, hu, hname⟩ := ShaderVariable.exists_inCode (htypes v hv) (initializer? v)
  rw [hu, Option.map_some, hname, Function.comp_apply]

/-- All that a shader tells of its uniforms is declared in the pieces of its sources, and nothing
else: the names of both blocks, the public uniforms in the pixel stage with the types and the initial
values that the shader tells, and the fields of the data of lights. -/
structure GeneratedShader.MatchesSources (s : GeneratedShader) (vertex pixel : List Emitted) :
    Prop where
  names : ∀ name, (∃ u ∈ uniformsOf vertex ++ uniformsOf pixel, u.name = name) ↔
    name ∈ s.publicUniforms.names ∨ name ∈ s.privateUniforms.names
  publicUniforms : ∀ v ∈ s.publicUniforms.entries, ∃ u ∈ uniformsOf pixel,
    v.inCode? (v.value?.bind Glsl.literal?) = some u
  lightData : s.lightData.entries.map (·.inCode? none) = (lightFieldsOf (ownLines pixel)).map some

/-- Without implementations there are neither files nor texts of the document, and the uniforms that
all lines of the sources declare are those that the shader tells. -/
theorem GeneratedShader.MatchesSources.names_linesOf {d : Document} {files : FileTree}
    {searchPath : SearchPath} {s : GeneratedShader} {vertex pixel : List Emitted}
    (h : s.MatchesSources vertex pixel)
    (hvertex : WrittenAs d files searchPath s.vertexSource vertex)
    (hpixel : WrittenAs d files searchPath s.pixelSource pixel) (hnone : d.implementations = [])
    (name : String) :
    (∃ u ∈ (linesOf s.vertexSource ++ linesOf s.pixelSource).filterMap uniformOf?,
        u.name = name) ↔
      name ∈ s.publicUniforms.names ∨ name ∈ s.privateUniforms.names := by
  rw [List.filterMap_append,
    hvertex.uniforms_linesOf fun e he => (hvertex.genuine e he).exists_line hnone,
    hpixel.uniforms_linesOf fun e he => (hpixel.genuine e he).exists_line hnone]
  exact h.names name

section Names

variable {options : GeneratorOptions} {g : ShaderGraph} {nodes : List ShaderNode} {isLit : Bool}
  {p : ShaderParts} {vertex pixel : List Emitted}

/-- The names that both stages declare are those of the uniforms of all blocks. -/
theorem ShaderParts.MadeFor.names_iff (h : p.MadeFor options g nodes isLit)
    (hroom : p.maxLights = if isLit then max options.maxLights 1 else 0)
    (htypes : p.publicUniforms.HasKnownTypes)
    (hvertex : uniformsOf vertex = p.vertexUniforms.entries.filterMap (·.inCode? none))
    (hpixel : uniformsOf pixel = p.pixelUniforms.entries.filterMap (·.inCode? none) ++
      p.publicUniforms.entries.filterMap (fun v => v.inCode? (v.value?.bind Glsl.literal?)) ++
      (if p.maxLights = 0 then [] else [⟨"LightData", Uniforms.lightData, none⟩])) (name : String) :
    (∃ u ∈ uniformsOf vertex ++ uniformsOf pixel, u.name = name) ↔
      name ∈ p.publicUniforms.names ∨ name ∈ (p.privateUniforms isLit).names := by
  have hvertexTypes : p.vertexUniforms.HasKnownTypes := fun v hv => h.mem_vertexUniforms hv ▸ rfl
  have hpixelTypes : p.pixelUniforms.HasKnownTypes := by
    rw [h.pixelUniforms]
    cases isLit with
    | false => exact List.forall_mem_nil _
    | true => exact lightingUniforms_known options.environment
  have hlights : (if p.maxLights = 0 then [] else
      [(⟨"LightData", Uniforms.lightData, none⟩ : DeclaredVariable)]).map (·.name) =
      if isLit then [Uniforms.lightData] else [] := by
    rw [hroom]
    cases isLit with
    | false => rfl
    | true =>
      have hpos : max options.maxLights 1 ≠ 0 := by omega
      simp [hpos]
  rw [← List.mem_map, hvertex, hpixel]
  simp only [List.map_append, names_inCode _ hvertexTypes, names_inCode _ hpixelTypes,
    names_inCode _ htypes, hlights, List.mem_append, mem_names_privateUniforms]
  cases isLit with
  | false => simp only [Bool.false_eq_true, if_false, List.not_mem_nil, false_and]; tauto
  | true => simp only [if_true, List.mem_singleton, true_and]; tauto

/-- The fields that are read are all fields of the data of lights. -/
theorem ShaderParts.lightFields_eq {lines : List String}
    (hroom : p.maxLights = if isLit then max options.maxLights 1 else 0)
    (hunlit : isLit = false → p.lightData = {}) (htypes : p.lightData.HasKnownTypes)
    (hread : lightFieldsOf lines =
      if p.maxLights = 0 then [] else p.lightData.entries.filterMap (·.inCode? none)) :
    p.lightData.entries.map (·.inCode? none) = (lightFieldsOf lines).map some := by
  have hall : lightFieldsOf lines = p.lightData.entries.filterMap (·.inCode? none) := by
    rw [hread]
    cases isLit with
    | false => simp [hunlit rfl]
    | true =>
      rw [if_pos rfl] at hroom
      exact if_neg (by omega)
  rw [hall, List.map_filterMap, ← List.filterMap_eq_map]
  refine List.filterMap_congr fun v hv => ?_
  obtain ⟨u, hu, -⟩ := ShaderVariable.exists_inCode (htypes v hv) none
  rw [Function.comp_apply, hu, Option.map_some]

end Names

/-- The nodes of a graph are written in lines. -/
theorem Graph.writable {r : Request} {path : String} {depth root : Nat} {b : Build}
    (h : buildWithin r depth path = .ok (root, b)) :
    ∀ n ∈ b.nodes, n.Writable r.document (b.graph path root) := by
  obtain ⟨hsound, -⟩ := buildWithin_sound h
  have hadded := buildWithin_added h
  exact fun n hn => ⟨hsound.oneLine_name hn,
    fun input hinput => hsound.oneLine_inputExpression hn hinput,
    fun code hcode => (hadded n hn).comesFrom hcode⟩

/-- The main function of a graph is written in lines. -/
theorem MainBody.isWritten {d : Document} {files : FileTree} {searchPath : SearchPath}
    {g : ShaderGraph} {transparency : Bool} {body : List Statement}
    (main : MainBody g transparency body) (hnodes : ∀ n ∈ g.nodes, n.Writable d g) :
    ∀ s ∈ body, s.IsWritten d files searchPath := by
  intro s hs
  rw [main.body_eq] at hs
  rcases List.mem_append.mp hs with hs | hs
  · obtain ⟨i, hi, hs⟩ := List.mem_flatMap.mp hs
    obtain ⟨n, hn, hstatements⟩ := main.own i hi
    exact statementsOf_isWritten (hnodes n (List.mem_of_getElem? hn)) hstatements s hs
  · have hroot := hnodes main.root (List.mem_of_getElem? main.rootNode)
    exact (finalStatements?_isPlain hroot.outputVariable main.isFinal s hs).isWritten

namespace Graph.Sample

/-- The implementation of the definition of a category by a function. -/
def calling (category function : String) : Element :=
  { category := "implementation", name := "IM_" ++ category
    attributes := [("nodedef", "ND_" ++ category), ("language", "genglsl"),
      ("function", function)] }

/-- A surface whose function has a declaration in its name. -/
def declaring : Request :=
  request
    [definition "glow" "surfaceshader" [input "strength" "float" [("value", "0.5")]],
      calling "glow" "uniform float extra = f",
      definition "spot" "lightshader" [input "color" "color3", input "cone" "float"],
      node "glow" "top" "surfaceshader" []]

end Graph.Sample

/-- The shader for this surface. -/
def declaringShader : Except GenerationError GeneratedShader :=
  ({ lights := .ofList [("ND_spot", 1)] } : ShaderGenerator).generate
    Graph.Sample.declaring.document (.empty []) "top" {}

/-- A statement of the main function is a line of the source of the pixel stage. -/
theorem ShaderParts.mem_linesOf_pixelSource {p : ShaderParts} {s : Statement}
    (h : s ∈ p.pixelBody) (hline : OneLine s.render) :
    indentation 1 ++ s.render ∈ linesOf p.pixelSource := by
  obtain ⟨front, hfront⟩ : ∃ front, p.pixelSource = front ++ mainText p.pixelBody :=
    ⟨_, pixelSource_eq p⟩
  have hsource : p.pixelSource = front ++ "void main()\n\x7b" ++ "\n" ++
      (linesText 1 (p.pixelBody.map Statement.render) ++ "\x7d\n") := by
    have hopening : "void main()\n\x7b" ++ "\n" = "void main()\n\x7b\n" := by decide
    rw [hfront, mainText]
    simp only [lines_code_eq, String.empty_append, String.append_assoc, hopening]
  rw [hsource, linesOf_append]
  exact List.mem_append_right _ (mem_linesOf_linesText (List.mem_map_of_mem h) hline)

end MaterialViewer
