import MaterialViewer.Number.Integer
import MaterialViewer.Settings.Basic

/-!
# Command lines

The arguments of the viewer: switches, options with a value in the next argument, and at most one
document. Arguments that are not known are passed over. What the command line says replaces the
settings, except that library folders and replacements are added to them.
-/

namespace MaterialViewer

/-- What a command line says. -/
structure CommandLine where
  /-- The library folders to add. -/
  libraries : List String := []
  /-- The search path. -/
  searchPath? : Option SearchPath := none
  /-- The replacements to add, in order. -/
  remaps : List (String × String) := []
  /-- The document to open. -/
  material? : Option Path := none
  /-- The file with settings. -/
  config? : Option Path := none
  /-- The number of samples. -/
  samples? : Option Nat := none
  /-- Whether to write the generated shaders. -/
  savesShaders : Bool := false
  /-- Whether to stay and watch the files. -/
  watches : Bool := false
  /-- Whether to show the usage only. -/
  help : Bool := false
deriving DecidableEq

/-- Why a command line is refused. -/
inductive CommandLineError
  /-- An option is the last argument. -/
  | missingValue (option : String)
  /-- The value of an option is malformed. -/
  | invalidValue (option value : String)
deriving DecidableEq

/-- The text of an error. -/
def CommandLineError.message : CommandLineError → String
  | missingValue option => s!"{option} requires a value"
  | invalidValue option value => s!"Invalid value '{value}' for {option}"

namespace CommandLine

/-- The options that take a value. -/
def options : List String :=
  ["--library", "--path", "--remap", "--material", "--config", "--env-samples"]

/-- A replacement: the two texts around the only colon, the first of which is not empty. -/
def readRemap? (value : String) : Option (String × String) :=
  match Text.splitOn ':' value.toList with
  | [old, new] => if old = [] then none else some (String.ofList old, String.ofList new)
  | _ => none

/-- Take in an option with its value. -/
def takeOption (c : CommandLine) (option value : String) : Except CommandLineError CommandLine :=
  match option with
  | "--library" => .ok { c with libraries := c.libraries ++ [value] }
  | "--path" => .ok { c with searchPath? := some (.parse value) }
  | "--remap" =>
    match readRemap? value with
    | some remap => .ok { c with remaps := c.remaps ++ [remap] }
    | none => .error (.invalidValue option value)
  | "--material" => .ok { c with material? := some ⟨value⟩ }
  | "--config" => .ok { c with config? := some ⟨value⟩ }
  | _ =>
    match Number.readBelow? (Nat.pow 2 32) value.toList with
    | some samples => .ok { c with samples? := some samples }
    | none => .error (.invalidValue option value)

/-- Take in an argument that is no option. The first one that does not begin with two dashes is the
document. -/
def takeArgument (c : CommandLine) (argument : String) : CommandLine :=
  match argument with
  | "--save-shaders" => { c with savesShaders := true }
  | "--watch" => { c with watches := true }
  | "--help" | "-h" => { c with help := true }
  | _ =>
    if c.material?.isNone && !"--".toList.isPrefixOf argument.toList then
      { c with material? := some ⟨argument⟩ }
    else c

/-- Take in arguments one after the other. -/
def takeAll (c : CommandLine) : List String → Except CommandLineError CommandLine
  | [] => .ok c
  | argument :: rest =>
    if options.contains argument then
      match rest with
      | [] => .error (.missingValue argument)
      | value :: rest =>
        match c.takeOption argument value with
        | .error e => .error e
        | .ok c => c.takeAll rest
    else (c.takeArgument argument).takeAll rest

/-- What the arguments of a command line say. -/
def parse (arguments : List String) : Except CommandLineError CommandLine := takeAll {} arguments

/-- The settings as the command line changes them. -/
def apply (c : CommandLine) (s : Settings) : Settings :=
  let s :=
    { s with
      libraryFolders := s.libraryFolders ++ c.libraries
      searchPath := c.searchPath?.getD s.searchPath
      modifiers :=
        { s.modifiers with
          remap := c.remaps.foldl (fun table (old, new) => Ordered.put old new table)
            s.modifiers.remap }
      material? := c.material?.or s.material? }
  match c.samples? with
  | some samples => s.withSamples samples
  | none => s

/-- The lines that explain the command line. -/
def usageLines : List String :=
  ["Usage: mxview [options] [material.mtlx]",
    "",
    "Options:",
    "  --library <folder>     Add a library folder (repeatable)",
    "  --path <dirs>          Search path, ';' separated",
    "  --remap <from>:<to>    Remap a category, name or attribute value",
    "  --material <file>      Material document to open",
    "  --config <file.ron>    Viewer settings",
    "  --env-samples <n>      Environment samples (4 to 1024)",
    "  --save-shaders         Write <name>_vs.glsl / <name>_ps.glsl to the search path",
    "  --watch                Reload when the document or its textures change",
    "  --help                 Show this message"]

/-- The text that explains the command line. -/
def usage : String := Text.joinWith "\n" usageLines

end CommandLine

end MaterialViewer
