import MaterialViewer.Files.Tree
import MaterialViewer.Settings.Reading

/-!
# Files with settings

Settings of a version that is not known yet are refused, and numbers of samples are moved into the
range when they are read.
-/

namespace MaterialViewer.Settings

/-- The settings in a text, with the number of samples moved into the range. -/
def ofText (path : Path) (s : String) : Except SettingsError Settings :=
  match (Notation.parse? s).bind fun (dialect, n) => ofNotation? dialect n with
  | none => .error (.malformed path)
  | some settings =>
    if settings.version > newestVersion then .error (.tooNew settings.version)
    else .ok (settings.withSamples settings.environment.samples)

/-- The settings in a file. -/
def load (files : FileTree) (path : Path) : Except SettingsError Settings :=
  match files.readText? path with
  | none => .error (.inaccessible path)
  | some s => ofText path s

/-- The text of settings. -/
def render (s : Settings) : String := s.toNotation.render

/-- Write settings to a file. -/
def save (s : Settings) (files : FileTree) (path : Path) : Except SettingsError FileTree :=
  match files.writeText? path s.render with
  | none => .error (.inaccessible path)
  | some files => .ok files

end MaterialViewer.Settings
