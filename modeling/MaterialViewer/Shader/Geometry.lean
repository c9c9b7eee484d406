import MaterialViewer.Shader.CodeBuffer
import MaterialViewer.Shader.Statement

/-!
# Geometry in shaders

What nodes that read geometry need of the two stages of a shader: vertex attributes, varyings that
carry their values from the vertex to the pixel stage, the assignments of these varyings, and the
statements that read them. All texture coordinates of one set share a varying, as do all nodes that
read one property of the surface.
-/

namespace MaterialViewer

/-- The transform from object to world space. -/
def Uniforms.worldMatrix : String := "u_worldMatrix"

/-- The transform from world space to the screen. -/
def Uniforms.viewProjectionMatrix : String := "u_viewProjectionMatrix"

/-- The transform of normals from object to world space. -/
def Uniforms.worldInverseTranspose : String := "u_worldInverseTransposeMatrix"

/-- The name of the block of varyings in both stages. -/
def Varying.block : String := "vd"

/-- The varying that holds the position in world space. -/
def Varying.positionWorld : String := "positionWorld"

/-- The vertex attribute that holds positions. -/
def VertexAttribute.position : String := "i_position"

/-- The vertex attribute that holds normals. -/
def VertexAttribute.normal : String := "i_normal"

/-- The vertex attribute that holds tangents. -/
def VertexAttribute.tangent : String := "i_tangent"

/-- What the names of vertex attributes with texture coordinates begin with. -/
def VertexAttribute.texcoordStem : String := "i_texcoord_"

/-- What one node needs of the two stages. -/
structure GeometryNeeds where
  /-- The vertex attributes. -/
  attributes : List ShaderVariable := []
  /-- The uniforms of the vertex stage. -/
  uniforms : List ShaderVariable := []
  /-- The varying. -/
  varying : ShaderVariable
  /-- The value of the varying in the vertex stage. -/
  value : String
  /-- The statement of the pixel stage that reads the varying. -/
  read : Statement

/-- The set of texture coordinates that a node reads. -/
def ShaderNode.texcoordIndex (n : ShaderNode) : Int32 :=
  match (n.input? "index").bind (·.value?) with
  | some (.integer index) => index
  | _ => 0

/-- The vector in world space of a vector in object space. -/
def worldDirection (matrix attr : String) : String :=
  s!"normalize(({matrix} * vec4({attr}, 0.0)).xyz)"

namespace GeometryReader

/-- What a node that reads texture coordinates needs. -/
def texcoordNeeds (n : ShaderNode) : GeometryNeeds :=
  let index := String.ofList (Number.int32Text n.texcoordIndex)
  let attr := VertexAttribute.texcoordStem ++ index
  let varying := "texcoord_" ++ index
  { attributes := [{ name := attr, type := n.type }]
    varying := { name := varying, type := n.type }
    value := attr
    read := .declare ((Glsl.typeName? n.type).getD "vec2") n.outputVariable
      (some (.ofText (Varying.block ++ "." ++ varying))) }

/-- What a node that reads a property of the surface needs. -/
def surfaceNeeds (n : ShaderNode) (property : SurfaceProperty) : GeometryNeeds :=
  let vector (name : String) : ShaderVariable := { name, type := .tuple .vector3 }
  let read (expression : String) : Statement :=
    .declare "vec3" n.outputVariable (some (.ofText expression))
  let inBlock (varying : String) : String := Varying.block ++ "." ++ varying
  match property with
  | .position =>
    { varying := vector Varying.positionWorld
      value := "hPositionWorld.xyz"
      read := read (inBlock Varying.positionWorld) }
  | .normal =>
    { attributes := [vector VertexAttribute.normal]
      uniforms := [{ name := Uniforms.worldInverseTranspose, type := .tuple .matrix44 }]
      varying := vector "normalWorld"
      value := worldDirection Uniforms.worldInverseTranspose VertexAttribute.normal
      read := read ("normalize(" ++ inBlock "normalWorld" ++ ")") }
  | .tangent =>
    { attributes := [vector VertexAttribute.tangent]
      varying := vector "tangentWorld"
      value := worldDirection Uniforms.worldMatrix VertexAttribute.tangent
      read := read ("normalize(" ++ inBlock "tangentWorld" ++ ")") }

/-- What a node that reads geometry needs. -/
def needs (reader : GeometryReader) (n : ShaderNode) : GeometryNeeds :=
  match reader with
  | texcoord => texcoordNeeds n
  | surface property => surfaceNeeds n property

end GeometryReader

/-- What a node needs of the geometry, if it reads any. -/
def ShaderNode.geometryNeeds? (n : ShaderNode) : Option GeometryNeeds :=
  match n.code? with
  | some (.geometry reader) => some (reader.needs n)
  | _ => none

/-- Assign a varying in the vertex stage, unless it is assigned already. -/
def CodeBuffer.assignVarying (b : CodeBuffer) (varying value : String) : CodeBuffer :=
  if b.isCalculated varying then b
  else (b.line s!"{Varying.block}.{varying} = {value};").setCalculated varying

end MaterialViewer
