import MaterialViewer.Graph.Build
import MaterialViewer.Graph.Order
import MaterialViewer.Shader.Geometry
import MaterialViewer.Shader.Lights

/-!
# Generating shaders

The shader that draws an element: the graph of the element is built and ordered, and each node in
that order adds the statements that compute its output to the pixel stage. What the nodes read of
the geometry is passed on by the vertex stage. A surface is lit, which adds the data of lights and
the uniforms of the environment.

`ShaderParts` holds what goes into the two sources before it is written out as text.
-/

namespace MaterialViewer

/-- The position of the camera in world space. -/
def Uniforms.viewPosition : String := "u_viewPosition"

/-- The map of the radiance of the environment. -/
def Uniforms.envRadiance : String := "u_envRadiance"

/-- The number of levels of the map of radiance. -/
def Uniforms.envRadianceMips : String := "u_envRadianceMips"

/-- The map of the irradiance of the environment. -/
def Uniforms.envIrradiance : String := "u_envIrradiance"

/-- The number of samples of the environment. -/
def Uniforms.envSamples : String := "u_envSamples"

/-- The number of lights in use. -/
def Uniforms.activeLights : String := "u_numActiveLightSources"

/-- The output of the pixel stage. -/
def Glsl.outputColor : String := "out_color"

/-! ## Statements of nodes -/

/-- The declaration of an output with the default of its type, or a remark if shaders have no such
value. -/
def ShaderNode.defaultStatement (n : ShaderNode) : Statement :=
  match Glsl.typeName? n.type, Glsl.defaultLiteral? n.type with
  | some type, some literal => .declare type n.outputVariable (some (.ofText literal))
  | _, _ => .comment (n.name ++ ": no output")

/-- The expressions for the inputs of a node that shaders can take. -/
def ShaderGraph.argumentsOf (g : ShaderGraph) (n : ShaderNode) : List Expression :=
  (n.inputs.filter fun input => Glsl.isShaderType input.type).map g.inputExpression

/-- The statements that compute an output of a type by code of the document. -/
def ShaderGraph.sourceStatements (g : ShaderGraph) (n : ShaderNode) (type name : String)
    (function? code? : Option String) : Except GenerationError (List Statement) :=
  match code? with
  | some code =>
    match Template.expand (fun input => (n.input? input).map g.inputExpression) code.toList with
    | .ok expression => .ok [.declare type n.outputVariable (some expression)]
    | .error fault => .error (.invalidSource name fault)
  | none =>
    match function? with
    | none => .error (.invalidSource name .nothingToCall)
    | some function =>
      .ok
        [.declare type n.outputVariable ((Glsl.defaultLiteral? n.type).map .ofText),
          .call function (g.argumentsOf n ++ [.ofText n.outputVariable])]

/-- The statements that compute the output of a node. -/
def ShaderGraph.statementsOf (g : ShaderGraph) (n : ShaderNode) :
    Except GenerationError (List Statement) :=
  match n.code? with
  | none => .ok [n.defaultStatement]
  | some (.geometry reader) => .ok [(reader.needs n).read]
  | some (.source name _ function? code?) =>
    match Glsl.typeName? n.type with
    | none => .ok [.comment (n.name ++ ": no output")]
    | some type => g.sourceStatements n type name function? code?

/-- The statements that compute the outputs of nodes, one node after the other. A node is left out if
its output is among the variables that are computed already. -/
def ShaderGraph.statementsOfAll (g : ShaderGraph) :
    List String → List ShaderNode → Except GenerationError (List Statement)
  | _, [] => .ok []
  | computed, n :: ns =>
    if computed.contains n.outputVariable then g.statementsOfAll computed ns
    else do
      let own ← g.statementsOf n
      let others ← g.statementsOfAll (n.outputVariable :: computed) ns
      return own ++ others

/-- The assignment of a color made from an output, with some text around it. -/
def assignColor (before output after : String) : Statement :=
  .assign Glsl.outputColor [.text before, .output output, .text after]

/-- The statements that write the color of a surface. -/
def surfaceStatements (output : String) (transparency : Bool) : List Statement :=
  if transparency then
    [.declare "float" "outAlpha"
        (some [.text "clamp(1.0 - dot(", .output output,
          .text ".transparency, vec3(0.3333)), 0.0, 1.0)"]),
      assignColor "vec4(" output ".color, outAlpha)"]
  else [assignColor "vec4(" output ".color, 1.0)"]

/-- The statements that write an output of a type as a color; none if the type has no color. -/
def finalStatements? (type : ValueType) (output : String) (transparency : Bool) :
    Option (List Statement) :=
  match type with
  | .closure .surfaceShader | .closure .volumeShader => some (surfaceStatements output transparency)
  | .float => some [assignColor "vec4(vec3(" output "), 1.0)"]
  | .integer | .boolean => some [assignColor "vec4(vec3(float(" output ")), 1.0)"]
  | .tuple .color3 | .tuple .vector3 => some [assignColor "vec4(" output ", 1.0)"]
  | .tuple .color4 | .tuple .vector4 => some [assignColor "" output ""]
  | .tuple .vector2 => some [assignColor "vec4(" output ", 0.0, 1.0)"]
  | _ => none

/-! ## The parts of a shader -/

/-- What goes into the sources of a shader. -/
structure ShaderParts where
  /-- The attributes that the vertex stage reads. -/
  vertexInputs : VariableBlock
  /-- The uniforms of the vertex stage. -/
  vertexUniforms : VariableBlock
  /-- The values passed from the vertex to the pixel stage. -/
  varyings : VariableBlock
  /-- The assignments of the varyings. -/
  vertexBody : CodeBuffer
  /-- The private uniforms of the pixel stage. -/
  pixelUniforms : VariableBlock
  /-- The public uniforms. -/
  publicUniforms : VariableBlock
  /-- The fields of the data of lights. -/
  lightData : VariableBlock
  /-- The room for lights; zero for a shader without lighting. -/
  maxLights : Nat
  /-- The function definitions of the pixel stage. -/
  functions : SourceText
  /-- The statements of the pixel stage. -/
  pixelBody : List Statement

/-- The uniforms of the environment. -/
def EnvironmentMethod.uniforms : EnvironmentMethod → List ShaderVariable
  | none => []
  | prefilter =>
    [{ name := Uniforms.envRadiance, type := .filename },
      { name := Uniforms.envRadianceMips, type := .integer },
      { name := Uniforms.envIrradiance, type := .filename }]
  | fis =>
    [{ name := Uniforms.envRadiance, type := .filename },
      { name := Uniforms.envRadianceMips, type := .integer },
      { name := Uniforms.envSamples, type := .integer },
      { name := Uniforms.envIrradiance, type := .filename }]

/-- The uniforms of lighting. -/
def lightingUniforms (method : EnvironmentMethod) : List ShaderVariable :=
  [{ name := Uniforms.viewPosition, type := .tuple .vector3 },
    { name := Uniforms.activeLights, type := .integer }] ++ method.uniforms

/-- The vertex stage before the nodes: a lit shader passes on the position. -/
def litBody (isLit : Bool) : CodeBuffer :=
  if isLit then
    { depth := 1 : CodeBuffer }.assignVarying Varying.positionWorld "hPositionWorld.xyz"
  else { depth := 1 }

/-- What a shader generator knows besides the request: the built-in implementations and the kinds of
lights in use. -/
structure ShaderGenerator where
  /-- The built-in implementations. -/
  registry : Registry := .builtin
  /-- The kinds of lights. -/
  lights : LightKinds := {}
deriving Inhabited

namespace ShaderGenerator

/-- The function definitions of a shader: those of the lights, then those of the nodes. -/
def functions (g : ShaderGenerator) (d : Document) (files : FileTree) (options : GeneratorOptions)
    (isLit : Bool) (nodes : List ShaderNode) : Except GenerationError SourceText := do
  let t ← if isLit then g.lights.evaluation d files options {} else pure {}
  nodes.foldlM (SourceText.includeFor files options.sourcePath) t

/-- The parts of the shader for a graph whose nodes are given in order. -/
def parts (g : ShaderGenerator) (d : Document) (files : FileTree) (options : GeneratorOptions)
    (graph : ShaderGraph) (nodes : List ShaderNode) (final : List Statement) (isLit : Bool) :
    Except GenerationError ShaderParts := do
  let functions ← g.functions d files options isLit nodes
  let statements ← graph.statementsOfAll [] nodes
  let needs := nodes.filterMap (·.geometryNeeds?)
  let position : ShaderVariable := { name := Varying.positionWorld, type := .tuple .vector3 }
  return {
    vertexInputs :=
      VariableBlock.addAll ⟨[{ name := VertexAttribute.position, type := .tuple .vector3 }]⟩
        (needs.flatMap (·.attributes))
    vertexUniforms :=
      VariableBlock.addAll
        ⟨[{ name := Uniforms.worldMatrix, type := .tuple .matrix44 },
          { name := Uniforms.viewProjectionMatrix, type := .tuple .matrix44 }]⟩
        (needs.flatMap (·.uniforms))
    varyings :=
      VariableBlock.addAll ⟨if isLit then [position] else []⟩ (needs.map (·.varying))
    vertexBody :=
      needs.foldl (fun b need => b.assignVarying need.varying.name need.value) (litBody isLit)
    pixelUniforms := ⟨if isLit then lightingUniforms options.environment else []⟩
    publicUniforms := graph.uniforms
    lightData := if isLit then g.lights.fields d else {}
    maxLights := if isLit then max options.maxLights 1 else 0
    functions
    pixelBody := statements ++ final }

end ShaderGenerator

/-! ## The sources -/

namespace ShaderParts

/-- The private uniforms of both stages; the data of lights is one of them. -/
def privateUniforms (p : ShaderParts) (isLit : Bool) : VariableBlock :=
  let both := (VariableBlock.addAll {} p.vertexUniforms.entries).addAll p.pixelUniforms.entries
  if isLit then both.add { name := Uniforms.lightData, type := .custom "LightData" } else both

/-- The declarations of a block of uniforms under a title; nothing for an empty block. -/
def declareUniforms (title : String) (block : VariableBlock)
    (declaration? : ShaderVariable → Option String) (b : CodeBuffer) : CodeBuffer :=
  if block.entries.isEmpty then b
  else
    let declarations := block.entries.filterMap fun v =>
      (declaration? v).map fun declaration => s!"uniform {declaration};"
    ((b.line ("// Uniform block: " ++ title)).lines declarations).blank

/-- The declaration of the block of varyings; nothing for an empty block. -/
def declareVaryings (qualifier : String) (varyings : VariableBlock) (b : CodeBuffer) :
    CodeBuffer :=
  if varyings.entries.isEmpty then b
  else
    let declarations := varyings.entries.filterMap fun v => v.declaration?.map (· ++ ";")
    let b := (b.line (qualifier ++ " VertexData")).openScope
    ((b.lines declarations).closeScope s!" {Varying.block};").blank

/-- The directive at the beginning of both sources. -/
def versionDirective : String := "#version 400"

/-- The source of the vertex stage. -/
def vertexSource (p : ShaderParts) : String :=
  let b := (({} : CodeBuffer).line versionDirective).blank
  let b := declareUniforms "PrivateUniforms" p.vertexUniforms (·.declaration?) b
  let b := b.line "// Inputs block: VertexInputs"
  let inputs := p.vertexInputs.entries.filterMap fun v =>
    v.declaration?.map fun declaration => s!"in {declaration};"
  let b := declareVaryings "out" p.varyings (b.lines inputs).blank
  let b := (b.line "void main()").openScope.lines
    [s!"vec4 hPositionWorld = {Uniforms.worldMatrix} * vec4({VertexAttribute.position}, 1.0);",
      s!"gl_Position = {Uniforms.viewProjectionMatrix} * hPositionWorld;"]
  b.code ++ p.vertexBody.code ++ "\x7d\n"

/-- The main function of the pixel stage with some statements. -/
def mainText (statements : List Statement) : String :=
  let body := { depth := 1 : CodeBuffer }.lines (statements.map Statement.render)
  "void main()\n\x7b\n" ++ body.code ++ "\x7d\n"

/-- The source of the pixel stage. -/
def pixelSource (p : ShaderParts) : String :=
  let b := (({} : CodeBuffer).line versionDirective).blank
  let b :=
    if p.maxLights = 0 then b
    else (b.line s!"#define MAX_LIGHT_SOURCES {p.maxLights}").blank
  let b := (b.block Glsl.closureDefinitions).blank
  let b := declareUniforms "PrivateUniforms" p.pixelUniforms (·.declaration?) b
  let b := declareUniforms "PublicUniforms" p.publicUniforms (·.initializedDeclaration?) b
  let b :=
    if p.maxLights = 0 then b else (b.block (LightKinds.declarations p.lightData)).blank
  let b := declareVaryings "in" p.varyings b
  let b := (b.lines ["// Pixel shader outputs", s!"out vec4 {Glsl.outputColor};"]).blank
  b.code ++ p.functions.code.code ++ mainText p.pixelBody

end ShaderParts

/-- The shader that draws the element with a path. -/
def ShaderGenerator.generate (g : ShaderGenerator) (d : Document) (files : FileTree)
    (path : String) (options : GeneratorOptions) : Except GenerationError GeneratedShader := do
  let graph ← Graph.build ⟨d, options, g.registry⟩ path
  match graph.order?, graph.rootNode? with
  | some order, some root =>
    match finalStatements? root.type root.outputVariable options.transparency with
    | none => throw (.unsupportedElement s!"{path} ({root.type.name})")
    | some final =>
      let isLit : Bool := root.type = .closure .surfaceShader
      let nodes := order.filterMap fun index => graph.nodes[index]?
      let parts ← g.parts d files options graph nodes final isLit
      return {
        name := path
        vertexSource := parts.vertexSource
        pixelSource := parts.pixelSource
        transparency := options.transparency
        publicUniforms := graph.uniforms
        privateUniforms := parts.privateUniforms isLit
        vertexInputs := parts.vertexInputs
        lightData := parts.lightData
        maxLights := parts.maxLights }
  | _, _ => throw (.cycle path)

end MaterialViewer
