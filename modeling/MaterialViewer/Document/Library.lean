import MaterialViewer.Document.Modifiers
import MaterialViewer.Document.Reading
import MaterialViewer.Document.Renderable

/-!
# Loading documents with libraries

Content is read, modified, merged with the standard library, and searched for what can be drawn of
it. Each renderable element is drawn once, or once for every tile that the document declares.
-/

namespace MaterialViewer

/-- One thing to draw: a renderable element, for one tile if there are tiles. -/
structure MaterialSubset where
  /-- The element. -/
  element : Renderable
  /-- The tile. -/
  tile? : Option String := none
deriving DecidableEq, Repr

/-- The label of a subset: its path, and its tile in parentheses. -/
def MaterialSubset.label (s : MaterialSubset) : String :=
  match s.tile? with
  | some tile => s!"{s.element.path} ({tile})"
  | none => s.element.path

/-- A document merged with its libraries, and what to draw of it. -/
structure LoadedDocument where
  /-- The merged document. -/
  document : Document
  /-- What to draw, in the order of discovery. -/
  subsets : List MaterialSubset
deriving Inhabited

namespace Document

/-- The extension of files that hold documents. -/
def fileExtension : String := "mtlx"

/-- The document files directly in a folder, in the order of their names. -/
def libraryFiles (files : FileTree) (folder : Path) : List Path :=
  match files.resolve folder with
  | none => []
  | some location =>
    if files.hasDirectory location then
      ((files.fileNames location).map fun name => folder.join ⟨name⟩).filter
        (·.extension? = some fileExtension)
    else []

/-- Read a library file and import it. -/
def addLibraryFile (files : FileTree) (options : ReadOptions) (d : Document) (path : Path) :
    Except DocumentError Document :=
  (ofFile files options path).map d.importLibrary

/-- All documents of the given folders as one document; a folder that does not exist is left out. -/
def loadLibraries (files : FileTree) (searchPath : SearchPath) (folders : List String) :
    Except DocumentError Document :=
  (folders.flatMap fun folder => libraryFiles files (searchPath.find files ⟨folder⟩)).foldlM
    (addLibraryFile files { searchPath }) empty

/-- What to draw of a document. -/
def subsets (d : Document) (target? : Option Target) : List MaterialSubset :=
  (d.renderables target?).flatMap fun element =>
    match d.tiles? with
    | some (tile :: tiles) => (tile :: tiles).map fun tile => ⟨element, some tile⟩
    | _ => [⟨element, none⟩]

/-- Content, modified and merged with the standard library. -/
def merge (d library : Document) (modifiers : DocumentModifiers) (target? : Option Target) :
    LoadedDocument :=
  let document := ((modifiers.apply d).importLibrary library).redirectUnimplemented target?
  ⟨document, document.subsets target?⟩

end Document

end MaterialViewer
