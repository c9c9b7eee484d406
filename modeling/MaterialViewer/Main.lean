import MaterialViewer.Viewer.Program

/-!
# The command line

Reads the files around the working directory, runs the program on them, prints what it leaves, and
writes the files that it made. All that is decided is decided by `Program.run`.
-/

namespace MaterialViewer.Disk

/-- How deep directories may be nested to be read. -/
def depthLimit : Nat := 64

/-- What is on the disk at a location, as an entry of a directory. -/
def entryAt (location : Location) : IO.FS.DirEntry :=
  { root := (Path.ofLocation location.dropLast).text, fileName := location.getLastD "." }

/-- A tree with the files and directories below a location added. A link that leads to a file stands
for that file; other links are left out, because a file tree has none. -/
def addBelow : Nat → Location → FileTree → IO FileTree
  | 0, _, tree => return tree
  | depth + 1, location, tree => do
    let entries ← (entryAt location).path.readDir
    entries.foldlM (fun tree entry => do
        let inner := location ++ [entry.fileName]
        if ← entry.path.isDir then
          if (← entry.path.symlinkMetadata).type == .symlink then return tree
          else addBelow depth inner tree
        else if ← entry.path.pathExists then
          return tree.insertFile inner (← IO.FS.readBinFile entry.path)
        else return tree)
      (tree.insertDirectory location)

/-- A tree with what is on the disk at a location; what is below the working directory is known. -/
def addAt (tree : FileTree) (location : Location) : IO FileTree := do
  let path := (entryAt location).path
  if tree.workingDirectory.isPrefixOf location then return tree
  else if ← path.isDir then addBelow depthLimit location tree
  else if ← path.pathExists then return tree.insertFile location (← IO.FS.readBinFile path)
  else return tree

/-- The files that a command line can be about: those below the working directory, and those
that its arguments name elsewhere. -/
def read (arguments : List String) : IO FileTree := do
  let workingDirectory := Path.lexicalLocation [] ⟨(← IO.currentDir).toString⟩
  let tree ← addBelow depthLimit workingDirectory (.empty workingDirectory)
  let named := arguments.flatMap fun argument => (SearchPath.parse argument).directories
  named.foldlM (fun tree p => addAt tree (p.lexicalLocation workingDirectory)) tree

/-- Write the files of a tree that are not the same in the tree before. -/
def writeChanges (before after : FileTree) : IO Unit :=
  after.files.forM fun (location, content) => do
    if before.content? location != some content then
      IO.FS.writeBinFile (entryAt location).path content

end MaterialViewer.Disk

/-- Shows the document that the arguments name. -/
def main (arguments : List String) : IO UInt32 := do
  let files ← MaterialViewer.Disk.read arguments
  let outcome := MaterialViewer.Program.run arguments files
  MaterialViewer.Disk.writeChanges files outcome.files
  outcome.output.forM fun line => IO.println line
  if let some e := outcome.error? then IO.eprintln e.message
  return outcome.status.toUInt32
