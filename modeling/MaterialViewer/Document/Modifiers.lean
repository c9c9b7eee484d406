import MaterialViewer.Document.Basic

/-!
# Document modifiers

Modifiers rename or hide the elements of a document without editing its files. Elements whose
category or name is to be skipped are removed with all below them; then a replacement table is
looked up once for every category, name and attribute value, and file prefixes are made to end in a
terminator. All of this concerns the elements below the root.
-/

namespace MaterialViewer

/-- A replacement table, a set of elements to skip, and the end of file prefixes. -/
structure DocumentModifiers where
  /-- Replacements of categories, names and attribute values. -/
  remap : List (String × String) := []
  /-- The categories and names of elements to remove. -/
  skip : List String := []
  /-- What every file prefix has to end with. -/
  prefixTerminator : String := ""
deriving DecidableEq, Inhabited

namespace DocumentModifiers

/-- The attribute that holds a file prefix. -/
def filePrefixKey : String := "fileprefix"

/-- Whether the modifiers change nothing. -/
def isEmpty (m : DocumentModifiers) : Bool :=
  m.remap.isEmpty && m.skip.isEmpty && m.prefixTerminator = ""

/-- The replacement of a text, or the text itself. -/
def replace (m : DocumentModifiers) (text : String) : String :=
  (Ordered.get? text m.remap).getD text

/-- Whether an element is to be removed. -/
def skips (m : DocumentModifiers) (e : Element) : Bool :=
  m.skip.contains e.category || m.skip.contains e.name

/-- A file prefix with the terminator at its end. -/
def terminate (m : DocumentModifiers) (value : String) : String :=
  if m.prefixTerminator.toList.isSuffixOf value.toList then value else value ++ m.prefixTerminator

/-- The attribute with its value replaced, and terminated if it is a file prefix. -/
def applyAttribute (m : DocumentModifiers) (entry : String × String) : String × String :=
  let value := m.replace entry.2
  (entry.1, if entry.1 = filePrefixKey then m.terminate value else value)

mutual

/-- The element with the modifiers applied to it and to all below it. -/
def applyElement (m : DocumentModifiers) : Element → Element
  | ⟨category, name, attributes, children, sourceUri⟩ =>
    { category := m.replace category
      name := m.replace name
      attributes := attributes.map m.applyAttribute
      children := applyAll m children
      sourceUri }

/-- The elements that are not skipped, with the modifiers applied to them. -/
def applyAll (m : DocumentModifiers) : List Element → List Element
  | [] => []
  | e :: es => if m.skips e then applyAll m es else applyElement m e :: applyAll m es

end

/-- The document with the modifiers applied to all elements below its root. -/
def apply (m : DocumentModifiers) (d : Document) : Document :=
  { d with root := { d.root with children := m.applyAll d.root.children } }

end DocumentModifiers

end MaterialViewer
