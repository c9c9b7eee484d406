import MaterialViewer.Document.Basic
import MaterialViewer.Files.SearchPath
import MaterialViewer.Markup.Event

/-!
# Reading documents

A document is written as markup: every tag is an element, its attribute `name` is the name of the
element, and text is only allowed to be blank. An `xi:include` tag is not an element but asks for
the elements of another file, which is looked up beside the including file and then on the search
path. A file is included once at most, and one that is missing or faulty is left out.

`Assembly.step` builds the tree from the events of the markup, one after the other.
-/

namespace MaterialViewer

/-- What is wrong with the text of a document. -/
inductive Malformation
  | multipleRoots
  | unbalancedEndTag
  | unexpectedText (text : String)
  | unexpectedEnd
  | noRoot
  | wrongRoot (category : String)
  /-- The text is not markup at all. -/
  | notMarkup (error : Markup.SyntaxError)
deriving DecidableEq

/-- Why a document cannot be read. -/
inductive DocumentError
  /-- The file cannot be read, or is not text. -/
  | unreadable (path : Path)
  /-- The text is not a document. -/
  | malformed (origin : String) (malformation : Malformation)
deriving DecidableEq

/-- The text of a malformation. -/
def Malformation.message : Malformation → String
  | multipleRoots => "multiple root elements"
  | unbalancedEndTag => "unbalanced end tag"
  | unexpectedText text => s!"unexpected text content '{text}'"
  | unexpectedEnd => "unexpected end of input"
  | noRoot => "document is empty"
  | wrongRoot category => s!"expected <{Document.rootCategory}> root, found <{category}>"
  | notMarkup error => error.message

/-- The text of a document error. -/
def DocumentError.message : DocumentError → String
  | unreadable path => s!"Failed to read {path.text}: no readable text file"
  | malformed origin malformation => s!"Parse error in {origin}: {malformation.message}"

/-! ## From events to a tree -/

/-- The tag that asks for another file. -/
def includeTag : String := "xi:include"

/-- The element that a tag stands for. -/
def Element.ofTag (tag : Markup.Tag) : Element :=
  { category := tag.name
    name := (Ordered.get? "name" tag.attributes).getD ""
    attributes := tag.attributes.filter (·.1 ≠ "name") }

/-- A tree under construction. -/
structure Assembly where
  /-- The root, when it has been closed. -/
  root? : Option Element := none
  /-- The open elements with the children so far, the innermost first. -/
  opened : List Element := []
  /-- The files asked for, in order. -/
  includes : List String := []
deriving Inhabited

namespace Assembly

/-- Put a finished element into the innermost open one, or at the root. -/
def close (a : Assembly) (e : Element) : Assembly :=
  match a.opened with
  | parent :: outer => { a with opened := parent.addChild e :: outer }
  | [] => { a with root? := some e }

/-- Take one event into account. -/
def step (a : Assembly) (event : Markup.Event) : Except Malformation Assembly :=
  match event with
  | .opening tag =>
    if a.opened.isEmpty && a.root?.isSome then .error .multipleRoots
    else .ok { a with opened := Element.ofTag tag :: a.opened }
  | .empty tag =>
    if tag.name = includeTag then
      match (Element.ofTag tag).filled? "href" with
      | some href => .ok { a with includes := a.includes ++ [href] }
      | none => .ok a
    else if a.opened.isEmpty && a.root?.isSome then .error .multipleRoots
    else .ok (a.close (Element.ofTag tag))
  | .closing =>
    match a.opened with
    | [] => .error .unbalancedEndTag
    | e :: outer => .ok ({ a with opened := outer }.close e)
  | .text content =>
    if Text.isAllBlank content then .ok a else .error (.unexpectedText (Text.trim content))
  | .other => .ok a
  | .broken error => .error (.notMarkup error)

/-- The finished tree and the files asked for. -/
def finish (a : Assembly) : Except Malformation (Element × List String) :=
  if a.opened.isEmpty then
    match a.root? with
    | none => .error .noRoot
    | some root =>
      if root.category = Document.rootCategory then .ok (root, a.includes)
      else .error (.wrongRoot root.category)
  else .error .unexpectedEnd

end Assembly

/-- The tree that a sequence of events stands for, and the files that it asks for. -/
def Element.ofEvents (events : List Markup.Event) :
    Except Malformation (Element × List String) :=
  (events.foldlM Assembly.step {}).bind Assembly.finish

namespace Document

/-- The document with a text, and the files that it asks for; `origin` names the text in errors. -/
def parseText (origin text : String) : Except DocumentError (Document × List String) :=
  match Element.ofEvents (Markup.events text) with
  | .ok (root, includes) => .ok ({ root }, includes)
  | .error malformation => .error (.malformed origin malformation)

/-! ## Includes -/

/-- Where documents are read from. -/
structure ReadOptions where
  /-- The directories in which files asked for are looked up. -/
  searchPath : SearchPath := {}
  /-- Whether files asked for are left out. -/
  skipIncludes : Bool := false
deriving Inhabited

/-- The path of a file asked for by a document in the directory `base?`. -/
def findInclude? (files : FileTree) (options : ReadOptions) (base? : Option Path) (href : String) :
    Option Path :=
  let beside? := (base?.map (·.join ⟨href⟩)).filter files.exists?
  beside?.or (options.searchPath.findExisting? files ⟨href⟩)

/-- Import the files asked for, one after the other. `read` reads one of them; `visited` are the
files read so far, which are not read again. -/
def importIncludes (files : FileTree) (options : ReadOptions) (base? : Option Path)
    (read : List Path → Path → Except DocumentError Document × List Path)
    (start : Document × List Path) (hrefs : List String) : Document × List Path :=
  if options.skipIncludes then start
  else
    hrefs.foldl
      (fun (document, visited) href =>
        match findInclude? files options base? href with
        | none => (document, visited)
        | some path =>
          if visited.contains (files.identity path) then (document, visited)
          else
            match read visited path with
            | (.ok included, visited) => (document.importLibrary included, visited)
            | (.error _, visited) => (document, visited))
      start

/-- Read a file and the files that it asks for, where includes nest at most `depth - 1` deep. The
second result are the files read so far. -/
def readNested (files : FileTree) (options : ReadOptions) :
    Nat → List Path → Path → Except DocumentError Document × List Path
  | 0, visited, path => (.error (.unreadable path), visited)
  | depth + 1, visited, path =>
    match files.readText? path with
    | none => (.error (.unreadable path), visited)
    | some text =>
      let visited := files.identity path :: visited
      match parseText path.text text with
      | .error e => (.error e, visited)
      | .ok (document, hrefs) =>
        let (document, visited) :=
          importIncludes files options path.parent? (readNested files options depth)
            ({ document with source? := some path }, visited) hrefs
        (.ok document, visited)

/-- A depth that no nesting of includes exceeds, as every file is read once at most. -/
def nestingBound (files : FileTree) : Nat := files.files.length + 1

/-- Read a document from a file. -/
def ofFile (files : FileTree) (options : ReadOptions) (path : Path) :
    Except DocumentError Document :=
  (readNested files options (nestingBound files) [] path).1

/-- Read a document from a text in memory. -/
def ofText (files : FileTree) (options : ReadOptions) (text : String) :
    Except DocumentError Document :=
  (parseText "<memory>" text).map fun (document, hrefs) =>
    (importIncludes files options none (readNested files options (nestingBound files))
      (document, []) hrefs).1

end Document

end MaterialViewer
