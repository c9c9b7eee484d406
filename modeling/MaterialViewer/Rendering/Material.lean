import MaterialViewer.Document.Transparency
import MaterialViewer.Rendering.Binding

/-!
# Materials

A material draws one element, for one tile if there are tiles. It starts without a shader, gets one
generated, and is bound by making its program the current one; only then can anything be written to
the program or drawn. Whatever fails leaves the material as it was.
-/

namespace MaterialViewer

/-- How far a material is. -/
inductive MaterialState
  /-- There is no shader yet. -/
  | unbound
  /-- There is a shader, but its program has not been made current. -/
  | generated (binding : ShaderBinding)
  /-- The program has been made current. -/
  | bound (binding : ShaderBinding)
deriving DecidableEq

/-- Why a step of a material fails. -/
inductive MaterialError
  /-- There is no shader to bind. -/
  | notGenerated (element : String)
  /-- The program has not been made current. -/
  | notBound (element : String)
  /-- The shader cannot be generated. -/
  | generation (e : GenerationError)
  /-- The shader cannot be compiled. -/
  | compilation (e : CompileError)

/-- The text of an error. -/
def MaterialError.message : MaterialError → String
  | notGenerated element => s!"Material '{element}' has no generated shader"
  | notBound element => s!"Material '{element}' is not bound"
  | generation e => e.message
  | compilation e => e.message

/-- A material. -/
structure Material where
  /-- The path of the element that it draws. -/
  element : String
  /-- The tile that it draws the element for. -/
  tile? : Option String := none
  /-- How far it is. -/
  state : MaterialState := .unbound
deriving DecidableEq

namespace Material

/-- A material without shader. The empty tile is none. -/
def new (element : String) (tile? : Option String) : Material :=
  { element, tile? := tile?.filter (· ≠ "") }

/-- The material for something to draw of a document. -/
def ofSubset (s : MaterialSubset) : Material := new s.element.path s.tile?

/-- The shader with its program. -/
def binding? (m : Material) : Option ShaderBinding :=
  match m.state with
  | .unbound => none
  | .generated b | .bound b => some b

/-- The shader. -/
def shader? (m : Material) : Option GeneratedShader := m.binding?.map (·.shader)

/-- The program. -/
def program? (m : Material) : Option CompiledProgram := m.binding?.map (·.program)

/-- Whether it has to be blended with what is behind it. -/
def isTransparent (m : Material) : Bool := m.shader?.any (·.transparency)

/-- The image files that were looked up so far. -/
def imageFiles (m : Material) : List Path := (m.binding?.map fun b => b.found.map (·.2)).getD []

/-- The binding, if the program has been made current. -/
def bound (m : Material) : Except MaterialError ShaderBinding :=
  match m.state with
  | .bound b => .ok b
  | _ => .error (.notBound m.element)

variable {δ : Type} [Device δ]

/-- Generate the shader and compile it. Whether it is transparent is seen from the document. -/
def generate (m : Material) (g : ShaderGenerator) (d : Document) (files : FileTree)
    (options : GeneratorOptions) (r : Renderer δ) : Except MaterialError Material × Renderer δ :=
  let options := { options with transparency := Transparency.isTransparent d m.element }
  match g.generate d files m.element options with
  | .error e => (.error (.generation e), r)
  | .ok shader =>
    match r.program shader.name ⟨shader.vertexSource, shader.pixelSource⟩ with
    | (.error e, r) => (.error (.compilation e), r)
    | (.ok program, r) => (.ok { m with state := .generated (.new shader program) }, r)

/-- Make the program current, and switch blending as the shader needs it. -/
def bind (m : Material) (r : Renderer δ) : Except MaterialError (Material × Renderer δ) :=
  match m.binding? with
  | none => .error (.notGenerated m.element)
  | some b =>
    let r := r.perform (.useProgram b.program.id)
    .ok ({ m with state := .bound b }, r.perform (.setBlending b.shader.transparency))

/-- Write the transforms and the position of the camera. -/
def bindView (m : Material) (world view projection : Matrix4) (r : Renderer δ) :
    Except MaterialError (Renderer δ) := do
  return (← m.bound).bindView world view projection r

/-- Bind the images of all uniforms that hold names of files, and count those that were bound. -/
def bindImages (m : Material) (files : FileTree) (search : SearchPath) (fallback? : Option Color)
    (r : Renderer δ) : Except MaterialError (Nat × Material × Renderer δ) := do
  let (count, b, r) := (← m.bound).bindImages files search m.tile? fallback? r
  return (count, { m with state := .bound b }, r)

/-- Bind the image file with a name to a sampler. The answer is the image if it was bound. -/
def bindImage (m : Material) (files : FileTree) (search : SearchPath) (uniform name : String)
    (fallback? : Option Color) (r : Renderer δ) :
    Except MaterialError (Option ImageDescriptor × Material × Renderer δ) := do
  let (image?, b, r) := (← m.bound).bindImage files search m.tile? uniform name fallback? r
  return (image?, { m with state := .bound b }, r)

/-- Bind the environment and the lights. -/
def bindLights (m : Material) (files : FileTree) (search : SearchPath) (rig : LightRig)
    (environment : EnvironmentLighting) (r : Renderer δ) :
    Except MaterialError (Material × Renderer δ) := do
  let (b, r) := (← m.bound).bindLights files search rig environment r
  return ({ m with state := .bound b }, r)

/-- Upload the streams of a mesh that the shader reads, and count them. -/
def bindMesh (m : Material) (mesh : Mesh) (r : Renderer δ) :
    Except MaterialError (Nat × Renderer δ) := do
  return (← m.bound).bindMesh mesh r

/-- Draw a partition of a mesh. -/
def drawPartition (m : Material) (p : MeshPartition) (r : Renderer δ) :
    Except MaterialError (Renderer δ) := do
  return (← m.bound).drawPartition p r

/-- Write a document value to a uniform. The answer says whether it was written. -/
def setUniform (m : Material) (name : String) (value : Value) (r : Renderer δ) :
    Except MaterialError (Bool × Renderer δ) := do
  return (← m.bound).setUniform name value r

end Material

end MaterialViewer
