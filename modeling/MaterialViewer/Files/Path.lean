import MaterialViewer.Text.Split

/-!
# Paths

A path is the text that names a file: parts between slashes, absolute when it starts with one. A
path is kept as written, because messages and documents show it; what it means is given by its
`steps`, in which repeated slashes and single dots play no part.

`Path.normalize` resolves dots by the text alone, from a given directory. A `Location` is the list
of names that leads from the root to a file or a directory, so it has no dots left to resolve.
-/

namespace MaterialViewer

/-- The names that lead from the root of a file system to a file or a directory. -/
abbrev Location := List String

/-- The text that names a file. -/
structure Path where
  /-- The path as written. -/
  text : String
deriving DecidableEq, Inhabited, Hashable

namespace Path

/-- The parts between slashes, also the empty ones. -/
def parts (p : Path) : List String := (Text.splitOn '/' p.text.toList).map String.ofList

/-- Whether the path starts at the root. -/
def isAbsolute (p : Path) : Bool := p.text.toList.head? = some '/'

/-- Whether a part between slashes says nothing: it is empty or a single dot. -/
def isIdle (part : String) : Bool := part = "" || part = "."

/-- The parts that matter for what the path names. -/
def steps (p : Path) : List String := p.parts.filter fun part => !isIdle part

/-- The path `p`, read from the directory `base`. An absolute path does not depend on `base`. -/
def join (base p : Path) : Path :=
  if p.isAbsolute || base.text = "" then p
  else if base.text.toList.getLast? = some '/' then ⟨base.text ++ p.text⟩
  else ⟨base.text ++ "/" ++ p.text⟩

/-- The parts without the idle ones at the end. The first part stays in any case: it is empty for
an absolute path, and a leading dot names the current directory. -/
def dropIdleEnd : List String → List String
  | [] => []
  | first :: rest => first :: (rest.reverse.dropWhile isIdle).reverse

/-- The path with the given parts; a single empty part is the root. -/
def ofParts (parts : List String) : Path :=
  if parts = [""] then ⟨"/"⟩ else ⟨Text.joinWith "/" parts⟩

/-- The directory that holds what the path names, as the front of the path as written. The root and
the empty path have none. -/
def parent? (p : Path) : Option Path :=
  match dropIdleEnd p.parts with
  | [] | [""] => none
  | [_] => some ⟨""⟩
  | parts => some (ofParts (dropIdleEnd parts.dropLast))

/-- The name of the file in its directory; none if the path ends with a step upwards. -/
def fileName? (p : Path) : Option String := p.steps.getLast?.filter (· ≠ "..")

/-- What follows the last dot of the file name; none if no dot, or only the first character, is
one. -/
def extension? (p : Path) : Option String :=
  p.fileName?.bind fun name =>
    match Text.splitAtLast? '.' name.toList with
    | none | some ([], _) => none
    | some (_, extension) => some (String.ofList extension)

/-- One step from a location, by its text alone: two dots lead upwards, and at the root nowhere. -/
def lexicalStep (at_ : Location) (step : String) : Location :=
  if step = ".." then at_.dropLast else at_ ++ [step]

/-- The location that the path names by its text alone, read from the location `base`. -/
def lexicalLocation (base : Location) (p : Path) : Location :=
  p.steps.foldl lexicalStep (if p.isAbsolute then [] else base)

/-- The absolute path of a location. -/
def ofLocation (location : Location) : Path := ⟨"/" ++ Text.joinWith "/" location⟩

/-- The absolute path without dots that the path names by its text alone, read from the location
`base`. The empty path names nothing and stays empty. -/
def normalize (base : Location) (p : Path) : Path :=
  if p.text = "" then p else ofLocation (p.lexicalLocation base)

end Path

end MaterialViewer
