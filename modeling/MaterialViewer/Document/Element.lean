import MaterialViewer.Ordered
import MaterialViewer.Text.Split

/-!
# Elements

A material document is a tree of elements. An element has a category, a name, attributes in the
order in which they were written, and children in order; an element that came from another file
records where it came from.

Below an element, others are named by *name paths*: names with slashes between them. Empty names in
a path are skipped, and among children of one name the first is meant.
-/

namespace MaterialViewer

/-- An element of a material document. -/
structure Element where
  /-- What kind of thing the element is. -/
  category : String
  /-- The name by which other elements refer to it. -/
  name : String
  /-- The attributes other than the name, in the order in which they were written. -/
  attributes : List (String × String) := []
  /-- The elements inside this one. -/
  children : List Element := []
  /-- The file from which the element was imported, if it was. -/
  sourceUri : Option String := none
deriving Inhabited, Repr

namespace Element

/-! ## Attributes -/

/-- The value of an attribute. -/
def attribute? (e : Element) (key : String) : Option String := Ordered.get? key e.attributes

/-- The value of an attribute that is present and not empty. -/
def filled? (e : Element) (key : String) : Option String := (e.attribute? key).filter (· ≠ "")

/-- Whether an attribute is present, empty or not. -/
def hasAttribute (e : Element) (key : String) : Bool := (e.attribute? key).isSome

/-- The element with a new value of an attribute, which keeps its position. -/
def setAttribute (e : Element) (key value : String) : Element :=
  { e with attributes := Ordered.put key value e.attributes }

/-- The element without an attribute. -/
def removeAttribute (e : Element) (key : String) : Element :=
  { e with attributes := Ordered.erase key e.attributes }

/-- The name of the type of an element; empty if it has none. -/
def typeName (e : Element) : String := (e.attribute? "type").getD ""

/-- The text of the value of an element. -/
def valueText? (e : Element) : Option String := e.attribute? "value"

/-! ## Children -/

/-- The first child with a name. -/
def child? (e : Element) (name : String) : Option Element := e.children.find? (·.name = name)

/-- The children of a category. -/
def childrenOf (e : Element) (category : String) : List Element :=
  e.children.filter (·.category = category)

/-- The inputs and parameters of an element. -/
def valueElements (e : Element) : List Element :=
  e.children.filter fun c => c.category = "input" || c.category = "parameter"

/-- The first input or parameter with a name. -/
def valueElement? (e : Element) (name : String) : Option Element :=
  e.valueElements.find? (·.name = name)

/-- The element with one more child, at the end. -/
def addChild (e child : Element) : Element := { e with children := e.children ++ [child] }

/-- The first child with a name, and the element without it. -/
def takeChild? (e : Element) (name : String) : Option (Element × Element) :=
  (e.child? name).map fun child =>
    (child, { e with children := e.children.eraseP (·.name = name) })

/-! ## Name paths -/

/-- The names in a path. -/
def namesOf (path : String) : List String :=
  ((Text.splitOn '/' path.toList).filter (· ≠ [])).map String.ofList

/-- The path of a child, from the path of its parent. -/
def joinPath (parent name : String) : String :=
  if parent = "" then name else parent ++ "/" ++ name

/-- The element reached by following names downwards. -/
def follow? (e : Element) : List String → Option Element
  | [] => some e
  | name :: names => (e.child? name).bind (follow? · names)

/-- The element below `e` with a path. -/
def descendant? (e : Element) (path : String) : Option Element := e.follow? (namesOf path)

/-- The list with the first element that satisfies `p` replaced by `f` of it; none if there is no
such element or `f` gives nothing. -/
def replaceFirst? (p : Element → Bool) (f : Element → Option Element) :
    List Element → Option (List Element)
  | [] => none
  | e :: es =>
    if p e then (f e).map (· :: es) else (replaceFirst? p f es).map (e :: ·)

/-- The tree with `f` applied to the element reached by following names downwards. -/
def modifyAt? (f : Element → Element) : List String → Element → Option Element
  | [], e => some (f e)
  | name :: names, e =>
    (replaceFirst? (·.name = name) (modifyAt? f names) e.children).map fun children =>
      { e with children }

/-- The tree with `f` applied to the element below `e` with a path. -/
def modify? (f : Element → Element) (path : String) (e : Element) : Option Element :=
  modifyAt? f (namesOf path) e

/-! ## The whole tree -/

mutual

/-- An element and all elements below it, each before its children. -/
def preorder : Element → List Element
  | e@⟨_, _, _, children, _⟩ => e :: preorderAll children

/-- The elements of several trees, one tree after the other. -/
def preorderAll : List Element → List Element
  | [] => []
  | e :: es => e.preorder ++ preorderAll es

end

mutual

/-- The number of elements of a tree. -/
def size : Element → Nat
  | ⟨_, _, _, children, _⟩ => sizeAll children + 1

/-- The number of elements of several trees. -/
def sizeAll : List Element → Nat
  | [] => 0
  | e :: es => e.size + sizeAll es

end

/-- Whether two lists of attributes hold the same values under the same keys. -/
def sameAttributes (a b : List (String × String)) : Bool :=
  a.length = b.length && a.all fun (key, value) => Ordered.get? key b = some value

mutual

/-- Whether two trees are equal up to the order of attributes. -/
def same : Element → Element → Bool
  | ⟨c, n, as, cs, uri⟩, ⟨c', n', as', cs', uri'⟩ =>
    c = c' && n = n' && sameAttributes as as' && sameAll cs cs' && uri = uri'

/-- Whether two lists of trees are equal up to the order of attributes. -/
def sameAll : List Element → List Element → Bool
  | [], [] => true
  | e :: es, f :: fs => e.same f && sameAll es fs
  | _, _ => false

end

theorem preorder_eq (e : Element) : e.preorder = e :: preorderAll e.children := by cases e; rfl

theorem size_eq (e : Element) : e.size = sizeAll e.children + 1 := by cases e; rfl

end Element

end MaterialViewer
