import MaterialViewer.Document.Element
import MaterialViewer.Files.Path
import MaterialViewer.Value.Basic

/-!
# Documents

A document is a tree of elements below a root, and the file that it was read from. This module
holds what can be looked up in a document: elements by name path, the kinds of elements at its top,
and the node definitions that its nodes and shader references stand for.

A node stands for the definition that it names; otherwise for the first definition of its category
that has its type, or else for the first definition of its category. A shader reference is looked up
in the same way but for the type, which it does not have.
-/

namespace MaterialViewer

/-- A material document. -/
structure Document where
  /-- The element that holds all others. -/
  root : Element
  /-- The file from which the document was read. -/
  source? : Option Path := none
deriving Inhabited

namespace Document

/-- The category of the root of every document. -/
def rootCategory : String := "materialx"

/-- The document without elements. -/
def empty : Document := { root := { category := rootCategory, name := "" } }

/-- The elements at the top of a document. -/
def elements (d : Document) : List Element := d.root.children

/-- The document with one more element at its end. -/
def add (d : Document) (e : Element) : Document := { d with root := d.root.addChild e }

/-- The element with a name path; the empty path names none. -/
def element? (d : Document) (path : String) : Option Element :=
  if path = "" then none else d.root.descendant? path

/-- The document with `f` applied to the element with a path, if there is one. -/
def modify? (f : Element → Element) (path : String) (d : Document) : Option Document :=
  if path = "" then none else (d.root.modify? f path).map fun root => { d with root }

/-- The path of the parent and the name at the end of a path; no parent without a slash. -/
def splitPath (path : String) : String × String :=
  match Text.splitAtLast? '/' path.toList with
  | some (parent, name) => (String.ofList parent, String.ofList name)
  | none => ("", path)

/-- The element at the end of a path, and the document without it. -/
def take? (d : Document) (path : String) : Option (Element × Document) :=
  let (parent, name) := splitPath path
  (d.root.descendant? parent).bind fun holder =>
    (holder.takeChild? name).bind fun (child, _) =>
      (d.root.modify? (fun e => ((e.takeChild? name).map (·.2)).getD e) parent).map fun root =>
        (child, { d with root })

/-- The elements of a category at the top of a document. -/
def elementsOf (d : Document) (category : String) : List Element := d.root.childrenOf category

/-- The materials of a document. -/
def materials (d : Document) : List Element := d.elementsOf "material"

/-- The node graphs of a document. -/
def nodeGraphs (d : Document) : List Element := d.elementsOf "nodegraph"

/-- The node definitions of a document. -/
def nodeDefs (d : Document) : List Element := d.elementsOf "nodedef"

/-- The implementation records of a document. -/
def implementations (d : Document) : List Element := d.elementsOf "implementation"

/-- The shader references of a material. -/
def shaderRefs (material : Element) : List Element := material.childrenOf "shaderref"

/-! ## Node definitions -/

/-- The node definition with a name. -/
def nodeDef? (d : Document) (name : String) : Option Element := d.nodeDefs.find? (·.name = name)

/-- The node definitions of the nodes of a category. -/
def nodeDefsFor (d : Document) (category : String) : List Element :=
  d.nodeDefs.filter fun def_ => def_.attribute? "node" = some category

/-- The node definition that a node stands for. -/
def nodeDefOfNode? (d : Document) (node : Element) : Option Element :=
  match node.filled? "nodedef" with
  | some name => d.nodeDef? name
  | none =>
    let candidates := d.nodeDefsFor node.category
    (candidates.find? (·.typeName = node.typeName)).or candidates.head?

/-- The node definition that a shader reference stands for. -/
def nodeDefOfShaderRef? (d : Document) (ref : Element) : Option Element :=
  match ref.filled? "nodedef" with
  | some name => d.nodeDef? name
  | none => (ref.filled? "node").bind fun category => (d.nodeDefsFor category).head?

/-! ## Importing -/

/-- An element of a library with the given file, which is the element's file if it has none. -/
def importedFrom (file? : Option Path) (e : Element) : Element :=
  match e.sourceUri with
  | some _ => e
  | none => { e with sourceUri := file?.map (·.text) }

/-- The document with one more element, unless it has one of that name. -/
def importElement (file? : Option Path) (d : Document) (e : Element) : Document :=
  if (d.root.child? e.name).isSome then d else d.add (importedFrom file? e)

/-- The document with the elements of a library at its end; of elements with one name the first
stays. -/
def importLibrary (d library : Document) : Document :=
  library.elements.foldl (importElement library.source?) d

/-- One more element as by `importElement`, and the number of elements that were added so far. -/
def importCounting (file? : Option Path) (state : Document × Nat) (e : Element) : Document × Nat :=
  (importElement file? state.1 e,
    if (state.1.root.child? e.name).isSome then state.2 else state.2 + 1)

/-- The number of elements that importing a library adds. -/
def importCount (d library : Document) : Nat :=
  (library.elements.foldl (importCounting library.source?) (d, 0)).2

/-! ## Geometric attributes -/

/-- The value of the first geometric attribute with a name; none if its text is not one of its
type. -/
def geometricAttribute? (d : Document) (name : String) : Option Value :=
  (((d.elementsOf "geominfo").flatMap (·.childrenOf "geomattr")).find? (·.name = name)).bind
    fun found => found.valueText?.bind (Value.parse? (.ofName found.typeName))

/-- The tiles that a document declares its textures to be made of. -/
def tiles? (d : Document) : Option (List String) :=
  match d.geometricAttribute? "udimset" with
  | some (.stringArray tiles) => some tiles
  | _ => none

end Document

end MaterialViewer
