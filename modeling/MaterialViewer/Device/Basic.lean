import MaterialViewer.Device.Uniform
import MaterialViewer.Image.Basic

/-!
# Devices

A device compiles and runs shader programs and holds textures. What a renderer needs of it are two
questions, whose answers are new programs and textures, and commands without an answer. A device is
a value: each use gives the device afterwards.
-/

namespace MaterialViewer

/-- A compiled program of a device. -/
structure ProgramId where
  /-- Its number. -/
  number : Nat
deriving DecidableEq, Hashable

/-- A texture of a device. -/
structure TextureId where
  /-- Its number. -/
  number : Nat
deriving DecidableEq, Hashable

/-- The two sources of a program. -/
structure ProgramSource where
  /-- The source of the vertex stage. -/
  vertex : String
  /-- The source of the pixel stage. -/
  pixel : String
deriving DecidableEq, Hashable

/-- A program that could not be compiled. -/
structure CompileError where
  /-- The name of the program. -/
  name : String
  /-- What the device says. -/
  reason : String
  /-- The refused sources. -/
  source : ProgramSource
deriving DecidableEq

/-- The text of an error. -/
def CompileError.message (e : CompileError) : String :=
  s!"Failed to compile '{e.name}': {e.reason}"

/-- What a texture shows beyond its border. -/
inductive AddressMode
  | periodic | clamp | reflected
deriving DecidableEq

/-- How a texture is read between its texels. -/
inductive FilterMode
  | closest | linear | cubic
deriving DecidableEq

/-- How a texture is read. -/
structure Sampling where
  /-- Beyond the left and right border. -/
  horizontal : AddressMode := .periodic
  /-- Beyond the upper and lower border. -/
  vertical : AddressMode := .periodic
  /-- Between texels. -/
  filter : FilterMode := .cubic
deriving DecidableEq

/-- A command without an answer. -/
inductive Command
  /-- Give up a program. -/
  | releaseProgram (program : ProgramId)
  /-- Make a program the current one. -/
  | useProgram (program : ProgramId)
  /-- Write a uniform of a program. -/
  | setUniform (program : ProgramId) (name : String) (value : UniformValue)
  /-- Give up a texture. -/
  | releaseTexture (texture : TextureId)
  /-- Bind a texture to a unit. -/
  | bindTexture (texture : TextureId) (unit : Nat) (sampling : Sampling)
  /-- Upload the values of a vertex attribute. -/
  | uploadAttribute (program : ProgramId) (name : String) (data : List Single) (components : Nat)
  /-- Upload the vertices of triangles. -/
  | uploadIndices (program : ProgramId) (indices : List Nat)
  /-- Draw the first vertices of the triangles. -/
  | draw (program : ProgramId) (count : Nat)
  /-- Switch blending with what is behind. -/
  | setBlending (on : Bool)
deriving DecidableEq

/-- A kind of devices, each with its state `δ`. -/
class Device (δ : Type) where
  /-- Compile a program under a name; the device may say why it refuses. -/
  compile : δ → String → ProgramSource → Except String ProgramId × δ
  /-- Upload an image as a new texture. -/
  createTexture : δ → Image → TextureId × δ
  /-- Carry out a command. -/
  perform : δ → Command → δ

end MaterialViewer
