import MaterialViewer.Document.Library
import MaterialViewer.Geometry.Matrix
import MaterialViewer.Geometry.Mesh
import MaterialViewer.Lighting.Rig
import MaterialViewer.Rendering.Renderer
import MaterialViewer.Shader.Generate

/-!
# Shader bindings

A shader binding is a generated shader with its compiled program, the texture unit of each of its
samplers, and the image files that were looked up for it so far. What is written to the program is
only what the shader declares, because a shader may do without a uniform that another one has.
-/

namespace MaterialViewer

/-- A generated shader with its program. -/
structure ShaderBinding where
  /-- The shader. -/
  shader : GeneratedShader
  /-- The program compiled from its sources. -/
  program : CompiledProgram
  /-- The texture unit of each sampler. -/
  units : List (String × Nat)
  /-- The files found for the names of images. -/
  found : List (String × Path) := []
deriving DecidableEq

namespace ShaderBinding

/-- The samplers of a shader: its images, then the maps of the environment. -/
def samplers (s : GeneratedShader) : List String :=
  s.imageUniforms.map (·.name) ++
    [Uniforms.envRadiance, Uniforms.envIrradiance].filter s.hasUniform

/-- The samplers numbered in order. -/
def numberSamplers (names : List String) : List (String × Nat) :=
  names.foldl (fun units name => Ordered.put name units.length units) []

/-- The binding of a shader that was just compiled. -/
def new (shader : GeneratedShader) (program : CompiledProgram) : ShaderBinding :=
  { shader, program, units := numberSamplers (samplers shader) }

/-- What stands for the tile in the name of an image. -/
def tileMark : String := "<UDIM>"

/-- The name of an image for a tile. -/
def forTile (tile? : Option String) (name : String) : String :=
  match tile? with
  | some tile => String.ofList (Text.replaceEach tileMark.toList tile.toList name.toList)
  | none => name

/-- The name of the image of a uniform, for a tile; none if it is empty. -/
def imageName? (tile? : Option String) (v : ShaderVariable) : Option String :=
  ((v.value?.bind (·.string?)).filter (· ≠ "")).map (forTile tile?)

/-- The binding after the file with a name has been looked up, unless it was before. -/
def lookUp (b : ShaderBinding) (files : FileTree) (search : SearchPath) (name : String) :
    ShaderBinding :=
  if (Ordered.get? name b.found).isSome then b
  else { b with found := b.found ++ [(name, search.find files ⟨name⟩)] }

/-- The file found for a name. -/
def found? (b : ShaderBinding) (name : String) : Option Path := Ordered.get? name b.found

variable {δ : Type} [Device δ]

/-- Write a uniform of the program. -/
def write (b : ShaderBinding) (name : String) (value : UniformValue) (r : Renderer δ) :
    Renderer δ :=
  r.perform (.setUniform b.program.id name value)

/-- Write a uniform if the shader declares it. -/
def set (b : ShaderBinding) (name : String) (value : UniformValue) (r : Renderer δ) : Renderer δ :=
  if b.shader.hasUniform name then b.write name value r else r

/-- Bind an image, or the fallback color if it cannot be had, to a sampler. The answer is the image
if it was bound. -/
def bindTexture (b : ShaderBinding) (files : FileTree) (uniform : String) (path? : Option Path)
    (fallback? : Option Color) (r : Renderer δ) : Option ImageDescriptor × Renderer δ :=
  match Ordered.get? uniform b.units with
  | none => (none, r)
  | some unit =>
    match r.imageOr files path? fallback? with
    | (none, r) => (none, r)
    | (some (descriptor, isImage), r) =>
      let r := r.perform (.bindTexture descriptor.texture unit {})
      (if isImage then some descriptor else none, b.write uniform (.sampler unit) r)

/-! ## Views -/

/-- Write the transforms and the position of the camera. -/
def bindView (b : ShaderBinding) (world view projection : Matrix4) (r : Renderer δ) : Renderer δ :=
  let matrix (m : Matrix4) : UniformValue := .matrix 4 m.toList
  let r := b.set Uniforms.worldMatrix (matrix world) r
  let r := b.set Uniforms.viewProjectionMatrix (matrix (projection * view)) r
  let r := b.set Uniforms.worldInverseTranspose (matrix world.inverse.transpose) r
  b.set Uniforms.viewPosition (.vector view.inverse.w.truncate.toList) r

/-! ## Images -/

/-- The binding after the files of all its images have been looked up. -/
def lookUpImages (b : ShaderBinding) (files : FileTree) (search : SearchPath)
    (tile? : Option String) : ShaderBinding :=
  (b.shader.imageUniforms.filterMap (imageName? tile?)).foldl
    (fun b name => b.lookUp files search name) b

/-- Bind the image of one uniform, and count it if it was bound. -/
def bindUniformImage (b : ShaderBinding) (files : FileTree) (tile? : Option String)
    (fallback? : Option Color) (state : Nat × Renderer δ) (v : ShaderVariable) :
    Nat × Renderer δ :=
  let path? := (imageName? tile? v).bind b.found?
  let (image?, r) := b.bindTexture files v.name path? fallback? state.2
  (if image?.isSome then state.1 + 1 else state.1, r)

/-- Bind the images of all uniforms that hold names of files, and count those that were bound. All
files are looked up before the first is read. -/
def bindImages (b : ShaderBinding) (files : FileTree) (search : SearchPath) (tile? : Option String)
    (fallback? : Option Color) (r : Renderer δ) : Nat × ShaderBinding × Renderer δ :=
  let b := b.lookUpImages files search tile?
  let (count, r) := b.shader.imageUniforms.foldl (b.bindUniformImage files tile? fallback?) (0, r)
  (count, b, r)

/-- Bind the image file with a name to a sampler. -/
def bindImage (b : ShaderBinding) (files : FileTree) (search : SearchPath) (tile? : Option String)
    (uniform name : String) (fallback? : Option Color) (r : Renderer δ) :
    Option ImageDescriptor × ShaderBinding × Renderer δ :=
  let name := forTile tile? name
  let b := b.lookUp files search name
  let (image?, r) := b.bindTexture files uniform (b.found? name) fallback? r
  (image?, b, r)

/-! ## Lights -/

/-- Bind a map of the environment, or black if it is not used or cannot be had. -/
def bindMap (b : ShaderBinding) (files : FileTree) (search : SearchPath) (indirect : Bool)
    (uniform name : String) (r : Renderer δ) :
    Option ImageDescriptor × ShaderBinding × Renderer δ :=
  if (Ordered.get? uniform b.units).isNone then (none, b, r)
  else
    let isUsed := indirect && name ≠ ""
    let b := if isUsed then b.lookUp files search name else b
    let path? := if isUsed then b.found? name else none
    let (image?, r) := b.bindTexture files uniform path? (some .opaqueBlack) r
    (image?, b, r)

/-- Bind both maps of the environment. The number of mip levels is written only with an image. -/
def bindEnvironment (b : ShaderBinding) (files : FileTree) (search : SearchPath)
    (environment : EnvironmentLighting) (r : Renderer δ) : ShaderBinding × Renderer δ :=
  let r := b.set Uniforms.envSamples (.count environment.samples) r
  let (image?, b, r) :=
    b.bindMap files search environment.indirect Uniforms.envRadiance environment.radiance r
  let r :=
    match image? with
    | some image => b.set Uniforms.envRadianceMips (.count image.mipCount) r
    | none => r
  let (_, b, r) :=
    b.bindMap files search environment.indirect Uniforms.envIrradiance environment.irradiance r
  (b, r)

/-- Write a field of the data of a light if the shader has room for the light and the field. -/
def setLightField (b : ShaderBinding) (index : Nat) (r : Renderer δ)
    (field : String × UniformValue) : Renderer δ :=
  if b.shader.hasLightField index field.1 then
    b.write (GeneratedShader.lightDataUniform index field.1) field.2 r
  else r

/-- The fields of the data of a light: the number of its kind, and its inputs. -/
def lightFields (light : Light) : List (String × UniformValue) :=
  (LightKinds.typeField, .count light.kind) ::
    light.inputs.filterMap fun (name, value) => (UniformValue.ofValue? value).map (name, ·)

/-- Write the data of the lights that the shader has room for. The number of lights that take part
is zero if direct lighting is off. -/
def bindRig (b : ShaderBinding) (rig : LightRig) (direct : Bool) (r : Renderer δ) : Renderer δ :=
  let capacity := b.shader.maxLights
  let active := if direct then min rig.lights.length capacity else 0
  let r := b.set Uniforms.activeLights (.count active) r
  (rig.lights.take capacity).zipIdx.foldl
    (fun r (light, index) => (lightFields light).foldl (b.setLightField index) r) r

/-- Bind the environment and the lights. -/
def bindLights (b : ShaderBinding) (files : FileTree) (search : SearchPath) (rig : LightRig)
    (environment : EnvironmentLighting) (r : Renderer δ) : ShaderBinding × Renderer δ :=
  let (b, r) := b.bindEnvironment files search environment r
  (b, b.bindRig rig environment.direct r)

/-! ## Meshes -/

/-- The streams of a mesh that the shader reads. -/
def streams (b : ShaderBinding) (mesh : Mesh) : List MeshStream :=
  b.shader.vertexInputs.entries.filterMap fun v => mesh.stream? v.name

/-- Upload the streams of a mesh that the shader reads, and count them. -/
def bindMesh (b : ShaderBinding) (mesh : Mesh) (r : Renderer δ) : Nat × Renderer δ :=
  let streams := b.streams mesh
  (streams.length, streams.foldl (fun r s =>
    r.perform (.uploadAttribute b.program.id s.name s.data s.components)) r)

/-- Upload the triangles of a partition and draw them. -/
def drawPartition (b : ShaderBinding) (p : MeshPartition) (r : Renderer δ) : Renderer δ :=
  let r := r.perform (.uploadIndices b.program.id p.indices)
  r.perform (.draw b.program.id p.indices.length)

/-- Write a document value to a uniform. The answer says whether it was written: the shader has to
declare the uniform, and the value has to have a form as uniform. -/
def setUniform (b : ShaderBinding) (name : String) (value : Value) (r : Renderer δ) :
    Bool × Renderer δ :=
  match UniformValue.ofValue? value with
  | some u => (b.shader.hasUniform name, b.set name u r)
  | none => (false, r)

end ShaderBinding

end MaterialViewer
