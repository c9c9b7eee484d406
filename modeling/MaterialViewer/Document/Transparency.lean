import MaterialViewer.Document.Basic

/-!
# Transparent surfaces

A surface is transparent when one of its opacities is connected or has a component that is not one,
or when its transmission is connected or has a component above zero.
-/

namespace MaterialViewer.Transparency

/-- The inputs that make a surface transparent unless they are exactly one. -/
def opacityInputs : List String := ["opacity", "existence", "alpha"]

/-- The inputs that make a surface transparent when they are above zero. -/
def transmissionInputs : List String := ["transmission"]

/-- Whether an authored input takes its value from elsewhere. -/
def isConnected (input : Element) : Bool :=
  input.hasAttribute "nodename" || input.hasAttribute "nodegraph" ||
    input.hasAttribute "interfacename"

/-- Whether the input with a name makes a surface transparent: it is connected, or some component of
its value satisfies `test`. -/
def inputIsTransparent (nodeDef : Element) (authored? : String → Option Element)
    (test : Single → Bool) (name : String) : Bool :=
  match nodeDef.valueElement? name with
  | none => false
  | some input =>
    let instance? := authored? name
    instance?.any isConnected ||
      (((instance?.bind (·.valueText?)).or input.valueText?).bind
        (Value.parse? (.ofName input.typeName))).any (·.anyFloat test)

/-- Whether a surface is transparent, given its definition and the inputs authored for it. -/
def surfaceIsTransparent (nodeDef : Element) (authored? : String → Option Element) : Bool :=
  opacityInputs.any
      (inputIsTransparent nodeDef authored? fun x => !x.sameNumber .one) ||
    transmissionInputs.any
      (inputIsTransparent nodeDef authored? fun x => Single.zero.lt x)

/-- The input of a shader reference with a name. -/
def boundInput? (ref : Element) (name : String) : Option Element :=
  ref.children.find? fun c =>
    (c.category = "bindinput" || c.category = "bindparam") && c.name = name

/-- Whether a node is a transparent surface. -/
def nodeIsTransparent (d : Document) (node : Element) : Bool :=
  match d.nodeDefOfNode? node with
  | some nodeDef =>
    nodeDef.typeName = ClosureType.surfaceShader.name &&
      surfaceIsTransparent nodeDef node.valueElement?
  | none => false

/-- Whether the element with a path is drawn as a transparent surface. -/
def isTransparent (d : Document) (path : String) : Bool :=
  match d.element? path with
  | none => false
  | some e =>
    if e.category = "shaderref" then
      match d.nodeDefOfShaderRef? e with
      | some nodeDef => surfaceIsTransparent nodeDef (boundInput? e)
      | none => false
    else if e.category = "output" then
      let graph? := (d.element? (Document.splitPath path).1).filter (·.category = "nodegraph")
      let node? := graph?.bind fun graph => (e.filled? "nodename").bind graph.child?
      node?.any (nodeIsTransparent d)
    else nodeIsTransparent d e

end MaterialViewer.Transparency
