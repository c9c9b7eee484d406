import MaterialViewer.Device.Headless
import MaterialViewer.Proofs.Shader.Declarations

/-!
# Proofs: parts of a shader

A generated shader is put together of parts. Both of its sources have a main function, so a headless
device compiles every generated shader.
-/

namespace MaterialViewer

namespace Text

theorem splitAtFirst?_isSome (pattern front back : List Char) :
    (splitAtFirst? pattern (front ++ pattern ++ back)).isSome = true := by
  induction front with
  | nil =>
    cases pattern with
    | nil => cases back <;> simp [splitAtFirst?]
    | cons c cs => simp [splitAtFirst?]
  | cons c front ih =>
    rw [List.cons_append, List.cons_append, splitAtFirst?]
    split
    · rfl
    · rw [Option.isSome_map]
      exact ih

theorem occursIn_append (front pattern back : String) :
    occursIn pattern (front ++ pattern ++ back) = true := by
  unfold occursIn
  rw [String.toList_append, String.toList_append]
  exact splitAtFirst?_isSome _ _ _

end Text

namespace CodeBuffer

theorem lines_code (b : CodeBuffer) (texts : List String) :
    ∃ rest, (b.lines texts).code = b.code ++ rest := by
  unfold lines
  induction texts generalizing b with
  | nil => exact ⟨"", by rw [List.foldl_nil, String.append_empty]⟩
  | cons text texts ih =>
    obtain ⟨rest, hrest⟩ := ih (b.line text)
    refine ⟨indentation b.depth ++ text ++ "\n" ++ rest, ?_⟩
    rw [List.foldl_cons, hrest]
    show b.code ++ indentation b.depth ++ text ++ "\n" ++ rest = _
    simp only [String.append_assoc]

end CodeBuffer

namespace ShaderParts

theorem occursIn_vertexSource (p : ShaderParts) :
    Text.occursIn Headless.entryPoint p.vertexSource = true := by
  unfold vertexSource
  dsimp only
  generalize declareVaryings "out" p.varyings _ = b
  obtain ⟨rest, hrest⟩ := CodeBuffer.lines_code (b.line "void main()").openScope
    [s!"vec4 hPositionWorld = {Uniforms.worldMatrix} * vec4({VertexAttribute.position}, 1.0);",
      s!"gl_Position = {Uniforms.viewProjectionMatrix} * hPositionWorld;"]
  rw [hrest]
  have hmain : ((b.line "void main()").openScope).code = b.code ++ CodeBuffer.indentation b.depth ++
      Headless.entryPoint ++ ("\n" ++ CodeBuffer.indentation b.depth ++ "\x7b" ++ "\n") := by
    show b.code ++ CodeBuffer.indentation b.depth ++ Headless.entryPoint ++ "\n" ++
      CodeBuffer.indentation b.depth ++ "\x7b" ++ "\n" = _
    simp only [String.append_assoc]
  rw [hmain, String.append_assoc, String.append_assoc, String.append_assoc]
  exact Text.occursIn_append _ _ _

theorem occursIn_mainText (header : String) (statements : List Statement) :
    Text.occursIn Headless.entryPoint (header ++ mainText statements) = true := by
  unfold mainText
  dsimp only
  generalize (CodeBuffer.lines _ _).code = code
  have hmain : "void main()\n\x7b\n" = Headless.entryPoint ++ "\n\x7b\n" := by decide +kernel
  rw [hmain, String.append_assoc, String.append_assoc, ← String.append_assoc]
  exact Text.occursIn_append _ _ _

theorem occursIn_pixelSource (p : ShaderParts) :
    Text.occursIn Headless.entryPoint p.pixelSource = true := by
  unfold pixelSource
  exact occursIn_mainText _ _

end ShaderParts

/-- A generated shader is made of the parts for a graph of its element. -/
theorem generate_parts {g : ShaderGenerator} {d : Document} {files : FileTree} {path : String}
    {options : GeneratorOptions} {shader : GeneratedShader}
    (h : g.generate d files path options = .ok shader) :
    ∃ graph root nodes final parts,
      Graph.build ⟨d, options, g.registry⟩ path = .ok graph ∧ graph.rootNode? = some root ∧
      g.parts d files options graph nodes final (root.type = .closure .surfaceShader) = .ok parts ∧
      shader = {
        name := path
        vertexSource := parts.vertexSource
        pixelSource := parts.pixelSource
        transparency := options.transparency
        publicUniforms := graph.uniforms
        privateUniforms := parts.privateUniforms (root.type = .closure .surfaceShader)
        vertexInputs := parts.vertexInputs
        lightData := parts.lightData
        maxLights := parts.maxLights } := by
  obtain ⟨graph, parts, hbuild, main, hparts, rfl⟩ := generate_main h
  exact ⟨graph, main.root, _, main.final, parts, hbuild, main.rootNode, hparts, rfl⟩

theorem parts_lights {g : ShaderGenerator} {d : Document} {files : FileTree}
    {options : GeneratorOptions} {graph : ShaderGraph} {nodes : List ShaderNode}
    {final : List Statement} {isLit : Bool} {parts : ShaderParts}
    (h : g.parts d files options graph nodes final isLit = .ok parts) :
    parts.lightData = (if isLit then g.lights.fields d else {}) ∧
      parts.maxLights = if isLit then max options.maxLights 1 else 0 := by
  unfold ShaderGenerator.parts at h
  obtain ⟨functions, -, h⟩ := Graph.ok_bind.mp h
  obtain ⟨statements, -, h⟩ := Graph.ok_bind.mp h
  obtain rfl := Except.ok.inj h
  exact ⟨rfl, rfl⟩

/-- The parts for nodes in an order: what the nodes need of the geometry is declared in both stages,
and a lit shader has uniforms of its own. -/
structure ShaderParts.MadeFor (options : GeneratorOptions) (graph : ShaderGraph)
    (nodes : List ShaderNode) (isLit : Bool) (p : ShaderParts) : Prop where
  vertexInputs : p.vertexInputs =
    VariableBlock.addAll ⟨[{ name := VertexAttribute.position, type := .tuple .vector3 }]⟩
      ((nodes.filterMap (·.geometryNeeds?)).flatMap (·.attributes))
  vertexUniforms : p.vertexUniforms =
    VariableBlock.addAll
      ⟨[{ name := Uniforms.worldMatrix, type := .tuple .matrix44 },
        { name := Uniforms.viewProjectionMatrix, type := .tuple .matrix44 }]⟩
      ((nodes.filterMap (·.geometryNeeds?)).flatMap (·.uniforms))
  varyings : p.varyings =
    VariableBlock.addAll
      ⟨if isLit then [{ name := Varying.positionWorld, type := .tuple .vector3 }] else []⟩
      ((nodes.filterMap (·.geometryNeeds?)).map (·.varying))
  vertexBody : p.vertexBody =
    (nodes.filterMap (·.geometryNeeds?)).foldl
      (fun b need => b.assignVarying need.varying.name need.value) (litBody isLit)
  pixelUniforms : p.pixelUniforms = ⟨if isLit then lightingUniforms options.environment else []⟩
  publicUniforms : p.publicUniforms = graph.uniforms

theorem parts_madeFor {g : ShaderGenerator} {d : Document} {files : FileTree}
    {options : GeneratorOptions} {graph : ShaderGraph} {nodes : List ShaderNode}
    {final : List Statement} {isLit : Bool} {parts : ShaderParts}
    (h : g.parts d files options graph nodes final isLit = .ok parts) :
    parts.MadeFor options graph nodes isLit := by
  unfold ShaderGenerator.parts at h
  obtain ⟨functions, -, h⟩ := Graph.ok_bind.mp h
  obtain ⟨statements, -, h⟩ := Graph.ok_bind.mp h
  obtain rfl := Except.ok.inj h
  exact ⟨rfl, rfl, rfl, rfl, rfl, rfl⟩

/-- A shader with room for lights has a field for each input of each kind of light. -/
theorem generate_lightData {g : ShaderGenerator} {d : Document} {files : FileTree} {path : String}
    {options : GeneratorOptions} {shader : GeneratedShader}
    (h : g.generate d files path options = .ok shader) (hlit : 0 < shader.maxLights) :
    shader.lightData = g.lights.fields d := by
  obtain ⟨graph, root, nodes, final, parts, -, -, hparts, rfl⟩ := generate_parts h
  obtain ⟨hdata, hmax⟩ := parts_lights hparts
  by_cases hroot : root.type = .closure .surfaceShader
  · rw [decide_eq_true hroot, if_pos rfl] at hdata
    exact hdata
  · rw [decide_eq_false hroot, if_neg Bool.false_ne_true] at hmax
    exact absurd hlit (by rw [hmax]; exact Nat.lt_irrefl 0)

/-- A headless device has nothing to say against a generated shader. -/
theorem missingStage?_generate {g : ShaderGenerator} {d : Document} {files : FileTree}
    {path : String} {options : GeneratorOptions} {shader : GeneratedShader}
    (h : g.generate d files path options = .ok shader) :
    Headless.missingStage? ⟨shader.vertexSource, shader.pixelSource⟩ = none := by
  obtain ⟨graph, root, nodes, final, parts, -, -, -, rfl⟩ := generate_parts h
  unfold Headless.missingStage?
  rw [parts.occursIn_vertexSource, parts.occursIn_pixelSource]
  rfl

theorem isOk_compile_generate {g : ShaderGenerator} {d : Document} {files : FileTree}
    {path : String} {options : GeneratorOptions} {shader : GeneratedShader}
    (h : g.generate d files path options = .ok shader) (device : Headless) (name : String) :
    (device.compile name ⟨shader.vertexSource, shader.pixelSource⟩).1.isOk = true := by
  unfold Headless.compile
  rw [missingStage?_generate h]
  rfl

end MaterialViewer
