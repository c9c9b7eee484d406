import MaterialViewer.Notation.Printer
import MaterialViewer.Number.Decimal
import MaterialViewer.Number.Integer
import MaterialViewer.Settings.Basic

/-!
# Settings in object notation

Settings are written as a record of all of them, in which every record has its name. Only the
document to open and the fallback color are left out where there is none.
-/

namespace MaterialViewer.Settings

/-- A single in object notation. A finite one has a fraction, and a NaN keeps its sign. -/
def singleNotation (x : Single) : Notation :=
  let plain := Number.plainText x
  .number <|
    if x.isNaN && x.isNegative then '-' :: plain
    else if x.isFinite && !plain.contains '.' then plain ++ ['.', '0']
    else plain

/-- A natural number in object notation. -/
def natNotation (n : Nat) : Notation := .number (Number.natText n)

/-- Singles in object notation. -/
def singlesNotation (xs : List Single) : Notation := .tuple none (xs.map singleNotation)

/-- A switch in object notation. -/
def boolNotation (b : Bool) : Notation := .word (.plain (if b then "true" else "false"))

/-- An optional field, which is left out without a value. -/
def optionalField (name : String) (value? : Option Notation) : List (String × Notation) :=
  match value? with
  | some value => [(name, .tuple (some (.plain "Some")) [value])]
  | none => []

/-- A search path in object notation. -/
def searchPathNotation (s : SearchPath) : Notation :=
  .record (some (.plain "FileSearchPath"))
    [("paths", .sequence (s.directories.map fun p => .text p.text))]

/-- Modifiers in object notation. -/
def modifiersNotation (m : DocumentModifiers) : Notation :=
  .record (some (.plain "DocumentModifiers"))
    [("remap_elements", .table (m.remap.map fun (a, b) => (.text a, .text b))),
      ("skip_elements", .sequence (m.skip.map .text)),
      ("file_prefix_terminator", .text m.prefixTerminator)]

/-- A camera in object notation. -/
def cameraNotation (c : Camera) : Notation :=
  .record (some (.plain "CameraSettings"))
    [("eye", singlesNotation c.eye.toList), ("target", singlesNotation c.target.toList),
      ("view_angle", singleNotation c.viewAngle), ("near", singleNotation c.near),
      ("far", singleNotation c.far), ("zoom", singleNotation c.zoom),
      ("viewport", .tuple none [natNotation c.width, natNotation c.height])]

/-- The names of the choices of the shader interface. -/
def interfaceNames : List (String × ShaderInterface) :=
  [("Complete", .complete), ("Reduced", .reduced)]

/-- The names of the methods for specular light. -/
def methodNames : List (String × EnvironmentMethod) :=
  [("None", .none), ("Prefilter", .prefilter), ("Fis", .fis)]

/-- The name of a choice. -/
def choiceName {α : Type} [DecidableEq α] (names : List (String × α)) (a : α) : String :=
  ((names.find? (·.2 = a)).map (·.1)).getD ""

/-- The options of the shader generator in object notation. -/
def generatorNotation (o : GeneratorOptions) : Notation :=
  .record (some (.plain "GenOptions"))
    [("target", .record (some (.plain "ImplementationTarget"))
        [("language", .text o.target.language), ("target", .text o.target.target)]),
      ("hw_transparency", boolNotation o.transparency),
      ("shader_interface", .choice (choiceName interfaceNames o.interface)),
      ("target_color_space_override", .text o.colorSpace),
      ("specular_environment_method", .choice (choiceName methodNames o.environment)),
      ("max_light_sources", natNotation o.maxLights),
      ("source_search_path", searchPathNotation o.sourcePath)]

/-- Settings in object notation. -/
def toNotation (s : Settings) : Notation :=
  .record (some (.plain "ViewerSettings")) <|
    [("version", natNotation s.version)] ++
    optionalField "material" (s.material?.map fun p => .text p.text) ++
    [("library_folders", .sequence (s.libraryFolders.map .text)),
      ("search_path", searchPathNotation s.searchPath),
      ("modifiers", modifiersNotation s.modifiers),
      ("environment_radiance", .text s.environment.radiance),
      ("environment_irradiance", .text s.environment.irradiance),
      ("env_samples", natNotation s.environment.samples),
      ("direct_lighting", boolNotation s.environment.direct),
      ("indirect_lighting", boolNotation s.environment.indirect)] ++
    optionalField "fallback_color" (s.fallback?.map fun c => singlesNotation c.components) ++
    [("camera", cameraNotation s.camera), ("generator", generatorNotation s.generator)]

end MaterialViewer.Settings
