import MaterialViewer.Notation.Parser
import MaterialViewer.Settings.Writing

/-!
# Reading settings

Settings are read from a record in object notation. Any setting may be left out, and so may the
fields of the camera and of the generator options; those that are not known are passed over. A field
given twice is an error. Where a reader takes a depth, it is the number of levels that are left for
its value.
-/

namespace MaterialViewer.Settings

/-- A text. -/
def text? : Notation → Option String
  | .text s => some s
  | _ => none

/-- A switch. -/
def bool? : Notation → Option Bool
  | .word w =>
    if w = .plain "true" then some true else if w = .plain "false" then some false else none
  | _ => none

/-- A natural number below `2 ^ bits`; the name of its kind may follow it. -/
def nat? (bits : Nat) : Notation → Option Nat
  | .number digits => (Notation.Integer.read? digits).bind (·.toNat? bits)
  | _ => none

/-- A single. -/
def single? : Notation → Option Single
  | .number digits => Notation.readSingle? digits
  | .word w => if w.isMarked then none else Notation.readSingle? w.name.toList
  | _ => none

/-- A choice by its name. -/
def choice? {α : Type} (names : List (String × α)) : Notation → Option α
  | .word w => names.lookup w.name
  | _ => none

/-- A sequence. -/
def sequence? {α : Type} (item : Notation → Option α) : Notation → Option (List α)
  | .sequence items => items.mapM item
  | _ => none

/-- A tuple without name. -/
def tuple? {α : Type} (item : Notation → Option α) : Notation → Option (List α)
  | .tuple none items => items.mapM item
  | _ => none

/-- A table from texts to texts. A later entry for a key replaces an earlier one. -/
def table? : Notation → Option (List (String × String))
  | .table entries =>
    entries.foldlM (fun found (key, value) => do
      return Ordered.put (← text? key) (← text? value) found) []
  | _ => none

/-- A point. -/
def point? (n : Notation) : Option Point := (tuple? single? n).bind Point.ofList?

/-- A color. -/
def color? (n : Notation) : Option Color :=
  match tuple? single? n with
  | some [red, green, blue, alpha] => some ⟨red, green, blue, alpha⟩
  | _ => none

section

variable (dialect : Notation.Dialect)

/-- An optional value. `isTuple` says that the value is a tuple, which may have to do without
parentheses of its own. -/
def option? {α : Type} (isTuple : Bool) (read : Notation → Option α) (n : Notation) :
    Option (Option α) :=
  let implicit (n : Notation) : Option (Option α) :=
    if dialect.implicitSome then (read n).map some else none
  match n with
  | .word w => if w = .plain "None" then some none else implicit n
  | .bareSome value => implicit value
  | .tuple name? items =>
    if name? = some (.plain "Some") then
      if dialect.unwrapVariants && isTuple then (read (.tuple none items)).map some
      else
        match items with
        | [item] => (read item).map some
        | _ => none
    else implicit n
  | _ => implicit n

/-- The fields of a record, of which the known ones must not repeat, and the others must mean
something with `depth` levels left. An empty tuple is a record without fields. -/
def fields? (depth : Nat) (name : String) (known : List String) (n : Notation) :
    Option (List (String × Notation)) := do
  let (name?, fields) ←
    match n with
    | .unit => some (none, [])
    | .tuple name? [] => some (name?, [])
    | .record name? fields => some (name?, fields)
    | _ => none
  guard ((name?.map (·.name == name)).getD (!dialect.explicitNames))
  guard (known.all fun key => (fields.filter (·.1 = key)).length ≤ 1)
  guard (fields.all fun (key, value) =>
    known.contains key || value.isMeaningful dialect (Notation.fieldDepth depth))
  return fields

/-- The value of a field, or the default if it is left out. -/
def fieldOr {α : Type} (fields : List (String × Notation)) (key : String) (default : α)
    (read : Notation → Option α) : Option α :=
  match fields.lookup key with
  | some n => read n
  | none => some default

/-- The value of a field that must be there. -/
def field? {α : Type} (fields : List (String × Notation)) (key : String)
    (read : Notation → Option α) : Option α := (fields.lookup key).bind read

/-- A search path. -/
def searchPath? (depth : Nat) (n : Notation) : Option SearchPath := do
  let fields ← fields? dialect depth "FileSearchPath" ["paths"] n
  return ⟨(← field? fields "paths" (sequence? text?)).map Path.mk⟩

/-- Modifiers. -/
def modifiers? (depth : Nat) (n : Notation) : Option DocumentModifiers := do
  let fields ← fields? dialect depth "DocumentModifiers"
    ["remap_elements", "skip_elements", "file_prefix_terminator"] n
  return {
    remap := ← field? fields "remap_elements" table?
    skip := (← field? fields "skip_elements" (sequence? text?)).eraseDups
    prefixTerminator := ← field? fields "file_prefix_terminator" text? }

/-- A camera. -/
def camera? (depth : Nat) (n : Notation) : Option Camera := do
  let base : Camera := {}
  let fields ← fields? dialect depth "CameraSettings"
    ["eye", "target", "view_angle", "near", "far", "zoom", "viewport"] n
  match ← fieldOr fields "viewport" [base.width, base.height] (tuple? (nat? 32)) with
  | [width, height] =>
    return {
      eye := ← fieldOr fields "eye" base.eye point?
      target := ← fieldOr fields "target" base.target point?
      viewAngle := ← fieldOr fields "view_angle" base.viewAngle single?
      near := ← fieldOr fields "near" base.near single?
      far := ← fieldOr fields "far" base.far single?
      zoom := ← fieldOr fields "zoom" base.zoom single?
      width
      height }
  | _ => none

/-- A language with a target. -/
def target? (depth : Nat) (n : Notation) : Option Target := do
  let fields ← fields? dialect depth "ImplementationTarget" ["language", "target"] n
  return ⟨← field? fields "language" text?, ← field? fields "target" text?⟩

/-- Options of the shader generator. -/
def generator? (depth : Nat) (n : Notation) : Option GeneratorOptions := do
  let base : GeneratorOptions := {}
  let inner := Notation.fieldDepth depth
  let fields ← fields? dialect depth "GenOptions"
    ["target", "hw_transparency", "shader_interface", "target_color_space_override",
      "specular_environment_method", "max_light_sources", "source_search_path"] n
  return {
    target := ← fieldOr fields "target" base.target (target? dialect inner)
    transparency := ← fieldOr fields "hw_transparency" base.transparency bool?
    interface := ← fieldOr fields "shader_interface" base.interface (choice? interfaceNames)
    colorSpace := ← fieldOr fields "target_color_space_override" base.colorSpace text?
    environment :=
      ← fieldOr fields "specular_environment_method" base.environment (choice? methodNames)
    maxLights := ← fieldOr fields "max_light_sources" base.maxLights (nat? 64)
    sourcePath :=
      ← fieldOr fields "source_search_path" base.sourcePath (searchPath? dialect inner) }

/-- Settings, with the number of samples as it is written. -/
def ofNotation? (n : Notation) : Option Settings := do
  let base : Settings := {}
  let depth := Notation.depthLimit
  let inner := Notation.fieldDepth depth
  let lighting := base.environment
  let fields ← fields? dialect depth "ViewerSettings"
    ["version", "material", "library_folders", "search_path", "modifiers", "environment_radiance",
      "environment_irradiance", "env_samples", "direct_lighting", "indirect_lighting",
      "fallback_color", "camera", "generator"] n
  return {
    version := ← fieldOr fields "version" base.version (nat? 32)
    material? := ← fieldOr fields "material" base.material?
      (option? dialect false fun n => (text? n).map Path.mk)
    libraryFolders := ← fieldOr fields "library_folders" base.libraryFolders (sequence? text?)
    searchPath := ← fieldOr fields "search_path" base.searchPath (searchPath? dialect inner)
    modifiers := ← fieldOr fields "modifiers" base.modifiers (modifiers? dialect inner)
    environment := {
      radiance := ← fieldOr fields "environment_radiance" lighting.radiance text?
      irradiance := ← fieldOr fields "environment_irradiance" lighting.irradiance text?
      samples := ← fieldOr fields "env_samples" lighting.samples (nat? 32)
      direct := ← fieldOr fields "direct_lighting" lighting.direct bool?
      indirect := ← fieldOr fields "indirect_lighting" lighting.indirect bool? }
    fallback? := ← fieldOr fields "fallback_color" base.fallback? (option? dialect true color?)
    camera := ← fieldOr fields "camera" base.camera (camera? dialect inner)
    generator := ← fieldOr fields "generator" base.generator (generator? dialect inner) }

end

end MaterialViewer.Settings
