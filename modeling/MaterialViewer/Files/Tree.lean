import MaterialViewer.Files.Path

/-!
# File trees

A `FileTree` is the content of a file system at one moment, as a value: its directories, its files
with their bytes, and the working directory from which relative paths are read. There are no links,
so a path is resolved by walking its steps; each step but the last has to be a directory, also when
the next one leads upwards again.
-/

namespace MaterialViewer

/-- The content of a file system. -/
structure FileTree where
  /-- The directory from which relative paths are read. -/
  workingDirectory : Location
  /-- All directories. -/
  directories : List Location
  /-- All files with their content. -/
  files : List (Location × ByteArray)

namespace FileTree

/-- All locations on the way from the root to a location, both included. -/
def ancestors : Location → List Location
  | [] => [[]]
  | name :: rest => [] :: (ancestors rest).map (name :: ·)

/-- The tree in which there is nothing but the working directory. -/
def empty (workingDirectory : Location) : FileTree where
  workingDirectory := workingDirectory
  directories := ancestors workingDirectory
  files := []

/-- The content of the file at a location. -/
def content? (t : FileTree) (location : Location) : Option ByteArray := t.files.lookup location

/-- Whether there is a file at a location. -/
def hasFile (t : FileTree) (location : Location) : Bool := (t.content? location).isSome

/-- Whether there is a directory at a location. -/
def hasDirectory (t : FileTree) (location : Location) : Bool := t.directories.contains location

/-- The location reached from `location` by the parts of a path; every part but the first is read in
a directory. -/
def walk (t : FileTree) (location : Location) : List String → Option Location
  | [] => some location
  | part :: rest =>
    if t.hasDirectory location then
      if Path.isIdle part then t.walk location rest
      else if part = ".." then t.walk location.dropLast rest
      else
        let next := location ++ [part]
        if t.hasDirectory next || t.hasFile next then t.walk next rest else none
    else none

/-- The location of an existing file or directory. -/
def resolve (t : FileTree) (p : Path) : Option Location :=
  if p.text = "" then none
  else t.walk (if p.isAbsolute then [] else t.workingDirectory) p.parts

/-- Whether the path names an existing file or directory. -/
def exists? (t : FileTree) (p : Path) : Bool := (t.resolve p).isSome

/-- Whether the path names an existing file. -/
def isFile (t : FileTree) (p : Path) : Bool := (t.resolve p).any t.hasFile

/-- Whether the path names an existing directory. -/
def isDirectory (t : FileTree) (p : Path) : Bool := (t.resolve p).any t.hasDirectory

/-- The absolute path without dots of an existing file or directory. -/
def canonical? (t : FileTree) (p : Path) : Option Path := (t.resolve p).map Path.ofLocation

/-- The path that stands for a file however it is written: its canonical path if it exists, and
otherwise the path itself. -/
def identity (t : FileTree) (p : Path) : Path := (t.canonical? p).getD p

/-- The bytes of a file. -/
def readBytes? (t : FileTree) (p : Path) : Option ByteArray := (t.resolve p).bind t.content?

/-- The text of a file; none also if its bytes are not UTF-8. -/
def readText? (t : FileTree) (p : Path) : Option String :=
  (t.readBytes? p).bind String.fromUTF8?

/-- The names of the files directly in a directory, in the order of their bytes. -/
def fileNames (t : FileTree) (directory : Location) : List String :=
  let names := t.files.filterMap fun (location, _) =>
    if location.dropLast = directory then location.getLast? else none
  names.mergeSort fun a b => decide (a ≤ b)

/-- The tree with the given file, and with the directories on the way to it. -/
def insertFile (t : FileTree) (location : Location) (content : ByteArray) : FileTree where
  workingDirectory := t.workingDirectory
  directories := t.directories ++ (ancestors location.dropLast).filter (!t.directories.contains ·)
  files := (location, content) :: t.files.filter fun (other, _) => other ≠ location

/-- The tree with the given directory, and with the directories on the way to it. -/
def insertDirectory (t : FileTree) (location : Location) : FileTree :=
  { t with
    directories := t.directories ++ (ancestors location).filter (!t.directories.contains ·) }

/-- The location that writing to a path creates or replaces: a name in an existing directory, which
is not itself a directory. -/
def writeLocation? (t : FileTree) (p : Path) : Option Location :=
  match p.parts.getLast? with
  | none => none
  | some name =>
    if Path.isIdle name || name = ".." then none
    else
      let start := if p.isAbsolute then [] else t.workingDirectory
      match t.walk start p.parts.dropLast with
      | none => none
      | some directory =>
        let target := directory ++ [name]
        if t.hasDirectory directory && !t.hasDirectory target then some target else none

/-- The tree after writing a file, if the path can be written. -/
def writeBytes? (t : FileTree) (p : Path) (content : ByteArray) : Option FileTree :=
  (t.writeLocation? p).map fun location => t.insertFile location content

/-- The tree after writing a text file, if the path can be written. -/
def writeText? (t : FileTree) (p : Path) (text : String) : Option FileTree :=
  t.writeBytes? p text.toUTF8

/-- The tree after removing a file, if the path names one. -/
def removeFile? (t : FileTree) (p : Path) : Option FileTree :=
  match t.resolve p with
  | some location =>
    if t.hasFile location then
      some { t with files := t.files.filter fun (other, _) => other ≠ location }
    else none
  | none => none

end FileTree

end MaterialViewer
