import MaterialViewer.Document.Modifiers
import MaterialViewer.Files.SearchPath
import MaterialViewer.Image.Basic
import MaterialViewer.Lighting.Rig
import MaterialViewer.Settings.Camera
import MaterialViewer.Shader.Options

/-!
# Settings

What a viewer can be told before it starts: where libraries and files are, how documents are
modified, the environment, the camera, and the options of the shader generator.
-/

namespace MaterialViewer

/-- The settings of a viewer. -/
structure Settings where
  /-- The version of the format. -/
  version : Nat := 1
  /-- The document to open. -/
  material? : Option Path := none
  /-- The folders with libraries, looked up on the search path. -/
  libraryFolders : List String := ["stdlib", "pbrlib", "stdlib/genglsl", "pbrlib/genglsl"]
  /-- Where libraries, documents, images and sources are looked up. -/
  searchPath : SearchPath := {}
  /-- The modifiers of documents. -/
  modifiers : DocumentModifiers := {}
  /-- The environment. -/
  environment : EnvironmentLighting := {}
  /-- The color shown for images that cannot be had; without it nothing is bound for them. -/
  fallback? : Option Color := some .opaqueBlack
  /-- The camera. -/
  camera : Camera := {}
  /-- The options of the shader generator. -/
  generator : GeneratorOptions := {}
deriving DecidableEq

instance : Inhabited Settings := ⟨{}⟩

/-- Why settings cannot be read or written. -/
inductive SettingsError
  /-- The file cannot be read as text, or cannot be written. -/
  | inaccessible (path : Path)
  /-- The content of the file is not settings. -/
  | malformed (path : Path)
  /-- The settings are of a version that is not known yet. -/
  | tooNew (version : Nat)
deriving DecidableEq

/-- The newest version of the format. -/
def Settings.newestVersion : Nat := 1

/-- The text of an error. -/
def SettingsError.message : SettingsError → String
  | .inaccessible path => s!"Failed to access {path.text}: no accessible text file"
  | .malformed path => s!"Invalid settings in {path.text}: not a record of settings"
  | .tooNew version =>
    s!"Settings version {version} is newer than supported version {Settings.newestVersion}"

namespace Settings

/-- The settings with a number of samples, moved into the range. -/
def withSamples (s : Settings) (samples : Nat) : Settings :=
  { s with
    environment := { s.environment with samples := EnvironmentLighting.clampSamples samples } }

/-- All numbers with a fraction in the settings. -/
def numbers (s : Settings) : List Single :=
  s.camera.numbers ++ ((s.fallback?.map Color.components).getD [])

/-- Whether settings agree, where numbers that are no numbers agree with nothing. -/
def agrees (s t : Settings) : Bool := decide (s = t) && !s.numbers.any Single.isNaN

end Settings

end MaterialViewer
