import MaterialViewer.Document.Implementation

/-!
# Color spaces

A node that reads a file may declare the color space of its texture. When it differs from the space
in which shading is computed, the node definition named after the two spaces and the type of the
node converts between them.
-/

namespace MaterialViewer.ColorSpace

/-- The attribute that names a color space. -/
def key : String := "colorspace"

/-- The name of the node definition that converts values of a type between two spaces. -/
def transformName (source target : String) (type : ValueType) : String :=
  s!"ND_{source}_to_{target}_{type.name}"

/-- The color space declared for a node: by the node itself, else by one of its file inputs, else by
the document. -/
def declared? (d : Document) (node : Element) : Option String :=
  (node.filled? key).or <|
    ((node.valueElements.filter (·.typeName = ValueType.filename.name)).findSome?
      (·.filled? key)).or <|
    d.root.filled? key

/-- The node definition that converts between two different spaces, if it is implemented. -/
def transform? (d : Document) (source space : String) (type : ValueType) (target : Target) :
    Option Element :=
  if source = "" || space = "" || source = space then none
  else
    let name := transformName source space type
    (d.nodeDef? name).filter fun _ => d.hasImplementation name (some target)

end MaterialViewer.ColorSpace
