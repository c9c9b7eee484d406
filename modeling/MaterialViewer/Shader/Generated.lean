import MaterialViewer.Shader.Variable

/-!
# Generated shaders

The two sources of a shader, and what a renderer needs to know to use them: the uniforms, the vertex
attributes, and the layout of the data of lights. The fields of the lights are uniforms as well,
under names such as `u_lightData[0].color`.
-/

namespace MaterialViewer

/-- The uniform that holds the data of lights. -/
def Uniforms.lightData : String := "u_lightData"

/-- A generated shader. -/
structure GeneratedShader where
  /-- The path of the element that it draws. -/
  name : String
  /-- The source of the vertex stage. -/
  vertexSource : String
  /-- The source of the pixel stage. -/
  pixelSource : String
  /-- Whether the surface has to be blended with what is behind it. -/
  transparency : Bool
  /-- The uniforms that can be edited. -/
  publicUniforms : VariableBlock
  /-- The uniforms that the renderer sets: transforms and lighting. -/
  privateUniforms : VariableBlock
  /-- The vertex attributes. -/
  vertexInputs : VariableBlock
  /-- The fields of the data of a light. -/
  lightData : VariableBlock
  /-- The number of lights that there is room for; zero for a shader without lighting. -/
  maxLights : Nat
deriving DecidableEq, Inhabited

namespace GeneratedShader

/-- The name of the uniform for a field of the data of a light. -/
def lightDataUniform (index : Nat) (field : String) : String :=
  s!"{Uniforms.lightData}[{String.ofList (Number.natText index)}].{field}"

/-- The light and the field that the name of a uniform stands for. -/
def parseLightDataUniform? (name : String) : Option (Nat × String) :=
  let stem := Uniforms.lightData.toList ++ ['[']
  if stem.isPrefixOf name.toList then
    (Text.splitAtFirst? "].".toList (name.toList.drop stem.length)).bind fun (index, field) =>
      (Number.readBelow? (Nat.pow 2 64) index).map fun index => (index, String.ofList field)
  else none

/-- The field of the data of a light, if there is room for the light and it has the field. -/
def lightField? (s : GeneratedShader) (index : Nat) (field : String) : Option ShaderVariable :=
  if index < s.maxLights then s.lightData.get? field else none

/-- Whether there is room for a light and it has a field. -/
def hasLightField (s : GeneratedShader) (index : Nat) (field : String) : Bool :=
  (s.lightField? index field).isSome

/-- The variable behind a uniform. -/
def uniform? (s : GeneratedShader) (name : String) : Option ShaderVariable :=
  ((s.publicUniforms.get? name).or (s.privateUniforms.get? name)).or <|
    (parseLightDataUniform? name).bind fun (index, field) => s.lightField? index field

/-- Whether the shader declares a uniform. -/
def hasUniform (s : GeneratedShader) (name : String) : Bool :=
  s.publicUniforms.contains name || s.privateUniforms.contains name ||
    (parseLightDataUniform? name).any fun (index, field) => s.hasLightField index field

/-- The type of a uniform. -/
def uniformType? (s : GeneratedShader) (name : String) : Option ValueType :=
  (s.uniform? name).map (·.type)

/-- Whether the shader reads a vertex attribute. -/
def hasVertexInput (s : GeneratedShader) (name : String) : Bool := s.vertexInputs.contains name

/-- The public uniform made for the input with a path. -/
def findUniform? (s : GeneratedShader) (path : String) : Option ShaderVariable :=
  s.publicUniforms.find? path

/-- The public uniforms that hold the names of texture files. -/
def imageUniforms (s : GeneratedShader) : List ShaderVariable :=
  s.publicUniforms.entries.filter (·.type = .filename)

end GeneratedShader

end MaterialViewer
