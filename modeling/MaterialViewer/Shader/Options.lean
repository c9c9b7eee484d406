import MaterialViewer.Document.Implementation
import MaterialViewer.Files.SearchPath

/-!
# Generator options

What a request for a shader can choose besides the element to draw.
-/

namespace MaterialViewer

/-- Which inputs that are not connected become public uniforms. -/
inductive ShaderInterface
  /-- All of them. -/
  | complete
  /-- Those that the document gives a value; the others are written into the code. -/
  | reduced
deriving DecidableEq, Repr

/-- How specular light of the environment is integrated. -/
inductive EnvironmentMethod
  /-- Not at all. -/
  | none
  /-- From maps filtered in advance. -/
  | prefilter
  /-- By sampling the maps where they matter. -/
  | fis
deriving DecidableEq, Repr

/-- The shading language of generated code. -/
def Glsl.languageName : String := "genglsl"

/-- The choices of a request for a shader. -/
structure GeneratorOptions where
  /-- The language and target for which implementations are looked up. -/
  target : Target := ⟨Glsl.languageName, "glsl"⟩
  /-- Whether the alpha of the output follows the transparency of the surface. -/
  transparency : Bool := false
  /-- Which inputs become public uniforms. -/
  interface : ShaderInterface := .complete
  /-- The color space into which textures are converted. -/
  colorSpace : String := "lin_rec709"
  /-- How specular light of the environment is integrated. -/
  environment : EnvironmentMethod := .fis
  /-- The number of lights that a shader has room for. -/
  maxLights : Nat := 3
  /-- The directories in which source files of implementations are looked up. -/
  sourcePath : SearchPath := {}
deriving DecidableEq, Inhabited

end MaterialViewer
