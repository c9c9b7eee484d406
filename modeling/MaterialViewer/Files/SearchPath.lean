import MaterialViewer.Files.Tree

/-!
# Search paths

An ordered list of directories in which relative file names are looked up. The first directory that
holds the name wins; after all of them the name is read from the working directory. An absolute name
is looked up as it is.
-/

namespace MaterialViewer

/-- An ordered list of directories, the first of highest priority. -/
structure SearchPath where
  /-- The directories in order of priority. -/
  directories : List Path := []
deriving DecidableEq, Inhabited

namespace SearchPath

/-- The search path written as a list of directories with semicolons between them. -/
def parse (text : String) : SearchPath := ⟨(Text.fields ';' text).map Path.mk⟩

/-- The search path with one more directory, of lowest priority. -/
def append (s : SearchPath) (p : Path) : SearchPath := ⟨s.directories ++ [p]⟩

/-- The search path with one more directory, of highest priority. -/
def prepend (s : SearchPath) (p : Path) : SearchPath := ⟨p :: s.directories⟩

/-- The search path followed by another one. -/
def extend (s other : SearchPath) : SearchPath := ⟨s.directories ++ other.directories⟩

/-- The existing file or directory that a name stands for. -/
def findExisting? (s : SearchPath) (files : FileTree) (name : Path) : Option Path :=
  if name.text = "" then none
  else if name.isAbsolute then if files.exists? name then some name else none
  else (s.directories.map (·.join name) ++ [name]).find? files.exists?

/-- The path that a name stands for; the name itself if nothing exists. -/
def find (s : SearchPath) (files : FileTree) (name : Path) : Path :=
  (s.findExisting? files name).getD name

end SearchPath

end MaterialViewer
