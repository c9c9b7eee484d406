import MaterialViewer.Device.Headless
import MaterialViewer.Settings.File
import MaterialViewer.Viewer.Session

/-!
# The program

A run of the viewer from its command line: it shows the first subset of a document on a headless
device, and writes its shaders if asked to. The files are a value, so a run gives the files
afterwards.
-/

namespace MaterialViewer

/-- What a run of the program leaves. -/
structure Outcome where
  /-- The status with which the program ends. -/
  status : Nat := 0
  /-- What it prints. -/
  output : List String := []
  /-- The error that ended it. -/
  error? : Option SessionError := none
  /-- The files afterwards. -/
  files : FileTree

namespace Program

/-- The folder with libraries that ends every search path. -/
def libraryRoot : Path := ⟨"libraries"⟩

/-- The settings that a command line asks for, with the library folder in the working directory at
the end of the search path. -/
def settings (c : CommandLine) (files : FileTree) : Except SessionError Settings := do
  let base ←
    match c.config? with
    | none => pure {}
    | some path => (Settings.load files path).mapError SessionError.settings
  let s := c.apply base
  let libraries := (Path.ofLocation files.workingDirectory).join libraryRoot
  return { s with searchPath := s.searchPath.append libraries }

/-- Show a document once, and give the files afterwards. -/
def showOnce (c : CommandLine) (files : FileTree) : Except SessionError Unit × FileTree :=
  match settings c files with
  | .error e => (.error e, files)
  | .ok settings =>
    match settings.material? with
    | none => (.error .noMaterial, files)
    | some material =>
      match Session.start settings ({} : Headless) files with
      | .error e => (.error e, files)
      | .ok session =>
        match session.load files material with
        | (.error e, _) => (.error e, files)
        | (.ok _, session) =>
          match session.draw files with
          | (.error e, _) => (.error e, files)
          | (.ok _, session) =>
            if c.savesShaders then
              let (saved, files) := session.saveShaders files
              (saved.map fun _ => (), files)
            else (.ok (), files)

/-- The status of a program that ends with an error. -/
def errorStatus : Nat := 255

/-- A run of the program. -/
def run (arguments : List String) (files : FileTree) : Outcome :=
  match CommandLine.parse arguments with
  | .error e => { status := errorStatus, error? := some (.commandLine e), files }
  | .ok c =>
    if c.help then { output := CommandLine.usageLines, files }
    else
      match showOnce c files with
      | (.ok _, files) => { files }
      | (.error e, files) => { status := errorStatus, error? := some e, files }

end Program

end MaterialViewer
