import MaterialViewer.Document.Transparency
import MaterialViewer.Graph.ColorSpace
import MaterialViewer.Graph.Error
import MaterialViewer.Graph.FreshName
import MaterialViewer.Graph.Node

/-!
# Building shader graphs

The graph of an element is built by walking through the document from what is drawn to what it is
computed from. A node of the document becomes one node of the graph, whatever the number of its
consumers. A node implemented by a node graph is replaced by the nodes of that graph, in which
references to the interface stand for the inputs of the replaced node. Unconnected inputs may read a
geometric property, for which a node is added, and a node that reads a texture may be followed by a
conversion between color spaces.

Nodes are identified by keys: the path of the node, after the keys of the nodes in whose place it
stands. `Build` is the graph under construction with the keys known so far. The steps that walk on
take the walk as an argument, and `buildNode` ties the knot, up to a depth that `depthBound` gives.

A fault of the element to be drawn is an error. A fault further on is not: the node or input
concerned falls back to a default. Only a cycle and a missing node are errors everywhere.
-/

namespace MaterialViewer.Graph

/-- What a graph is built from. -/
structure Request where
  /-- The document. -/
  document : Document
  /-- The choices of the request. -/
  options : GeneratorOptions
  /-- The node definitions with built-in implementations. -/
  registry : Registry

/-- A public parameter: an unconnected input of a node that can be set from outside. -/
structure Parameter where
  /-- The name of the node. -/
  nodeName : String
  /-- The path of the node. -/
  nodePath : String
  /-- The name of the input. -/
  inputName : String
  /-- The type of the input. -/
  type : ValueType
  /-- The value that the document gives or that is the default. -/
  value? : Option Value
deriving DecidableEq

namespace Parameter

/-- The name of the uniform that a parameter asks for. -/
def uniformName (p : Parameter) : String := p.nodeName ++ "_" ++ Glsl.identifier p.inputName

/-- The uniform that a parameter asks for. -/
def uniform (p : Parameter) : ShaderVariable :=
  { name := p.uniformName, type := p.type, value? := p.value?
    path := Element.joinPath p.nodePath p.inputName }

end Parameter

/-- A graph under construction. -/
structure Build where
  /-- The nodes so far. -/
  nodes : List ShaderNode := []
  /-- The node built for a key. -/
  built : List (String × Nat) := []
  /-- The keys of the nodes that are being built. -/
  inProgress : List String := []
  /-- The names given to nodes so far. -/
  names : List String := []
  /-- The public parameters in the order of their discovery. -/
  parameters : List Parameter := []
deriving Inhabited

/-- The public uniforms so far: of the parameters that ask for one name, the first gets it. -/
def Build.uniforms (b : Build) : VariableBlock :=
  VariableBlock.addAll {} (b.parameters.map (·.uniform))

/-- A step of building a graph, which may fail. -/
abbrev BuildM := StateT Build (Except GenerationError)

/-- Where names are looked up. -/
structure Scope where
  /-- The path of the node graph in which nodes are looked up; empty at the top of the document. -/
  graph : String := ""
  /-- What the keys of nodes begin with. -/
  keyPrefix : String := ""
  /-- What the names of nodes begin with. -/
  namePrefix : String := ""
  /-- The inputs of the node in whose place a node graph stands. -/
  interface? : Option (List ShaderInput) := none

/-- How a node is authored, where `α` is what a node can be connected to. -/
inductive Instance (α : Type)
  /-- As a node. -/
  | node (e : Element)
  /-- As a shader reference of a material. -/
  | shaderRef (e : Element)
  /-- Not at all: it is added by the walk, with some of its inputs connected. -/
  | added (connections : List (String × α))

namespace Instance

variable {α : Type}

/-- The authored input with a name. -/
def input? (i : Instance α) (name : String) : Option Element :=
  match i with
  | node e => e.valueElement? name
  | shaderRef e => Transparency.boundInput? e name
  | added _ => none

/-- What an input of an added node is connected to. -/
def connection? (i : Instance α) (name : String) : Option α :=
  match i with
  | added connections => Ordered.get? name connections
  | _ => none

/-- The category of a node for a node definition. -/
def category (i : Instance α) (nodeDef : Element) : String :=
  match i with
  | node e => e.category
  | _ => (nodeDef.attribute? "node").getD ""

end Instance

/-- A node to be built from a node definition. -/
structure Plan where
  /-- Where the inputs are looked up. -/
  scope : Scope
  /-- How the node is authored. -/
  inst : Instance Nat
  /-- The node definition. -/
  nodeDef : Element
  /-- The type of the output. -/
  type : ValueType
  /-- What the name of the node is made from. -/
  base : String
  /-- The key of the node. -/
  key : String
  /-- The path of the node. -/
  path : String
  /-- Whether the node computes what is drawn. -/
  isRoot : Bool

/-- A node that is complete but for its implementation. -/
structure Draft extends Plan where
  /-- The name of the node. -/
  name : String
  /-- The inputs. -/
  inputs : List ShaderInput

/-- Continue the walk at the node with a name in a scope; the last argument tells whether the node
computes what is drawn. The result is the index of the node. -/
abbrev Walk := Scope → String → Bool → BuildM Nat

/-! ## Parts of a step -/

/-- Take a name that no node has. -/
def freshName (base : String) : BuildM String :=
  modifyGet fun b =>
    let name := FreshName.fresh b.names base
    (name, { b with names := b.names ++ [name] })

/-- Add a node. -/
def pushNode (node : ShaderNode) : BuildM Nat :=
  modifyGet fun b => (b.nodes.length, { b with nodes := b.nodes ++ [node] })

/-- Register a public parameter. The result binds an input to its uniform. -/
def addParameter (p : Parameter) : BuildM InputBinding :=
  modifyGet fun b => (.uniform p.uniformName, { b with parameters := b.parameters ++ [p] })

/-- Note that the node for a key is being built. -/
def beginNode (key : String) : BuildM Unit :=
  modify fun b => { b with inProgress := key :: b.inProgress }

/-- Note that the node for a key is no longer being built. -/
def endNode (key : String) : BuildM Unit :=
  modify fun b => { b with inProgress := b.inProgress.erase key }

/-- Record the node built for a key. -/
def recordBuilt (key : String) (index : Nat) : BuildM Unit :=
  modify fun b => { b with built := Ordered.put key index b.built }

/-- The path of a node in a scope. -/
def Scope.pathOf (s : Scope) (name : String) : String := Element.joinPath s.graph name

/-- The key of a node in a scope. -/
def Scope.keyOf (s : Scope) (name : String) : String := s.keyPrefix ++ s.pathOf name

/-- The input with a name of the node in whose place the scope stands. -/
def Scope.outerInput? (s : Scope) (name : String) : Option ShaderInput :=
  s.interface?.bind (·.find? (·.name = name))

/-- The value that an element gives for a type; none if its text is not one of the type. -/
def valueOf? (e : Element) (type : ValueType) : Option Value :=
  e.valueText?.bind (Value.parse? type)

/-- The implementation of a node definition, built in or from the document. -/
def implementationOf (r : Request) (nodeDef : String) :
    Except ResolveError (NodeCode ⊕ String) :=
  match r.registry.find? nodeDef r.options.target with
  | some reader => .ok (.inl (.geometry reader))
  | none =>
    (r.document.resolve nodeDef r.options.target).map fun
      | .source name file? function? code? => .inl (.source name file? function? code?)
      | .graph name => .inr name

/-- The name of the node that an output of a node graph is connected to: of the output with the
given name, or of the first one if the name is empty. -/
def outputNode? (d : Document) (graph output : String) : Option String :=
  (d.element? graph).bind fun g =>
    ((g.childrenOf "output").find? fun o => output = "" || o.name = output).bind
      (·.filled? "nodename")

/-- Whether an unconnected input is written into the code instead of becoming a uniform. -/
def isInlined (r : Request) (type : ValueType) (isAuthored : Bool) : Bool :=
  type ≠ .filename && r.options.interface = .reduced && !isAuthored

/-- The binding of an input that is not connected and is no public parameter. -/
def fixedBinding? (r : Request) (type : ValueType) (value? : Option Value) (isAuthored : Bool) :
    Option InputBinding :=
  if !Glsl.isShaderType type || type.isClosure then some .unbound
  else if isInlined r type isAuthored then value?.map .constant
  else none

/-- The binding of an input that is not connected; a public parameter is registered if needed. -/
def classify (r : Request) (type : ValueType) (value? : Option Value) (isAuthored : Bool)
    (nodeName inputName nodePath : String) : BuildM InputBinding :=
  match fixedBinding? r type value? isAuthored with
  | some binding => return binding
  | none => addParameter { nodeName, nodePath, inputName, type, value? }

/-- A geometric property by name: the node definition, category and type of the node that reads it,
and the set of texture coordinates. -/
def geometricProperty? (name : String) : Option (String × String × ValueType × Option Int32) :=
  if name = "UV0" then some ("ND_texcoord_vector2", "texcoord", .tuple .vector2, some 0)
  else if name = "UV1" then some ("ND_texcoord_vector2", "texcoord", .tuple .vector2, some 1)
  else if name = "Pobject" ∨ name = "Pworld" then
    some ("ND_position_vector3", "position", .tuple .vector3, none)
  else if name = "Nobject" ∨ name = "Nworld" then
    some ("ND_normal_vector3", "normal", .tuple .vector3, none)
  else if name = "Tobject" ∨ name = "Tworld" then
    some ("ND_tangent_vector3", "tangent", .tuple .vector3, none)
  else none

/-- The input that selects a set of texture coordinates. -/
def indexInput (index : Int32) : ShaderInput :=
  ⟨"index", .integer, .constant (.integer index), some (.integer index)⟩

/-- The key of the node that reads a geometric property. -/
def geometricKey (property : String) : String := "geomprop:" ++ property

/-- The node that reads a geometric property; none if the property is unknown or the registry has no
implementation. -/
def geometricNode? (r : Request) (property : String) : BuildM (Option Nat) := do
  match geometricProperty? property with
  | none => return none
  | some (nodeDef, category, type, index?) =>
    let key := geometricKey property
    match Ordered.get? key (← get).built with
    | some index => return some index
    | none =>
      match r.registry.find? nodeDef r.options.target with
      | none => return none
      | some reader =>
        let name ← freshName ("geomprop_" ++ property)
        let index ← pushNode
          { name, path := key, category, nodeDef, type
            inputs := (index?.map indexInput).toList
            code? := some (.geometry reader) }
        recordBuilt key index
        return some index

/-! ## Inputs -/

/-- The input that takes its value from a node. -/
def connected (name : String) (type : ValueType) (index : Nat) : ShaderInput :=
  ⟨name, type, .connection index, none⟩

/-- What an authored input refers to, by name. -/
inductive Link
  /-- A node of the same scope. -/
  | node (name : String)
  /-- The node with a name behind an output of a node graph. -/
  | output (graph name : String)
  /-- An input of the node in whose place the scope stands. -/
  | interface (name : String)
  /-- Nothing that there is. -/
  | nothing

/-- What an authored input refers to if its node is in the node graph with a path. -/
def linkOf (d : Document) (graph : String) (authored : Element) : Link :=
  match authored.filled? "nodename" with
  | some name => if (d.element? (Element.joinPath graph name)).isSome then .node name else .nothing
  | none =>
    match authored.filled? "nodegraph" with
    | some graph =>
      match outputNode? d graph ((authored.attribute? "output").getD "") with
      | some name => .output graph name
      | none => .nothing
    | none =>
      match authored.filled? "interfacename" with
      | some name => .interface name
      | none => .nothing

/-- What an authored input refers to. -/
inductive Reference
  /-- The node with a name in a scope. -/
  | node (scope : Scope) (name : String)
  /-- An input of the node in whose place the scope stands. -/
  | outer (input : ShaderInput)
  /-- Nothing that there is. -/
  | nothing

/-- What a link refers to in a scope. In another node graph nothing stands for the interface. -/
def Scope.follow (s : Scope) : Link → Reference
  | .node name => .node s name
  | .output graph name => .node { s with graph, interface? := none } name
  | .interface name =>
    match s.outerInput? name with
    | some input => .outer input
    | none => .nothing
  | .nothing => .nothing

section Instance

variable {α : Type}

/-- What an instance in the node graph with a path refers to for an input of its definition. -/
def Instance.link (d : Document) (graph : String) (i : Instance α) (defInput : Element) : Link :=
  (i.input? defInput.name).elim .nothing (linkOf d graph)

/-- The value that is authored for an input of a definition. -/
def Instance.valueOf? (i : Instance α) (defInput : Element) : Option Value :=
  (i.input? defInput.name).bind (Graph.valueOf? · (.ofName defInput.typeName))

/-- The value of an input that is not connected: the authored one, the one of the definition, or the
default of its type. -/
def Instance.valueOrDefault? (i : Instance α) (defInput : Element) : Option Value :=
  ((i.valueOf? defInput).or (Graph.valueOf? defInput (.ofName defInput.typeName))).or
    (Value.default? (.ofName defInput.typeName))

/-- The geometric property that an input reads if it refers to nothing: one without an authored value
reads the property that its definition names. -/
def Instance.property? (i : Instance α) (defInput : Element) : Option String :=
  match i.valueOf? defInput with
  | some _ => none
  | none => defInput.filled? "defaultgeomprop"

end Instance

/-- The input of a node that refers to nothing. -/
def buildOwnInput (r : Request) (inst : Instance Nat) (nodeName nodePath : String)
    (defInput : Element) : BuildM ShaderInput := do
  let name := defInput.name
  let type := ValueType.ofName defInput.typeName
  match ← (inst.property? defInput).elim (pure none) (geometricNode? r) with
  | some index => return connected name type index
  | none =>
    let value? := inst.valueOrDefault? defInput
    let binding ←
      classify r type value? (inst.valueOf? defInput).isSome nodeName name nodePath
    return ⟨name, type, binding, value?⟩

/-- The input of a node for an input of its definition. -/
def buildInput (r : Request) (walk : Walk) (scope : Scope) (inst : Instance Nat)
    (nodeName nodePath : String) (defInput : Element) : BuildM ShaderInput :=
  let name := defInput.name
  let type := ValueType.ofName defInput.typeName
  match inst.connection? name with
  | some index => return connected name type index
  | none =>
    match scope.follow (inst.link r.document scope.graph defInput) with
    | .node target targetName => return connected name type (← walk target targetName false)
    | .outer input => return { input with name, type }
    | .nothing => buildOwnInput r inst nodeName nodePath defInput

/-- The inputs of a node, in the order of its definition. -/
def buildInputs (r : Request) (walk : Walk) (scope : Scope) (inst : Instance Nat)
    (nodeDef : Element) (nodeName nodePath : String) : BuildM (List ShaderInput) :=
  nodeDef.valueElements.mapM (buildInput r walk scope inst nodeName nodePath)

/-! ## Nodes -/

/-- The plan of an authored node. -/
def Plan.ofNode (scope : Scope) (e nodeDef : Element) (key path : String) (isRoot : Bool) : Plan :=
  { scope, inst := .node e, nodeDef
    type := .ofName (if e.typeName = "" then nodeDef.typeName else e.typeName)
    base := scope.namePrefix ++ e.name, key, path, isRoot }

/-- The plan of the node for a shader reference. -/
def Plan.ofShaderRef (e nodeDef : Element) (path : String) : Plan :=
  { scope := {}, inst := .shaderRef e, nodeDef, type := .ofName nodeDef.typeName, base := e.name
    key := path, path, isRoot := true }

/-- The path of the conversion that follows the node with a path. -/
def conversionPath (path : String) : String := path ++ "_" ++ ColorSpace.key

/-- The plan of the conversion that follows a node of the graph. -/
def Plan.ofConversion (scope : Scope) (node : ShaderNode) (index : Nat) (nodeDef : Element)
    (path : String) : Plan :=
  { scope, inst := .added [("in", index)], nodeDef, type := node.type, base := node.name ++ "_cm"
    key := scope.keyPrefix ++ conversionPath path, path := conversionPath path, isRoot := false }

/-- The node of a graph for a draft with its implementation. -/
def Draft.node (d : Draft) (code? : Option NodeCode) : ShaderNode :=
  { name := d.name, path := d.path, category := d.inst.category d.nodeDef
    nodeDef := d.nodeDef.name, type := d.type, inputs := d.inputs, code? }

/-- The scope of a node graph that stands in the place of a node. -/
def Draft.innerScope (d : Draft) (graph : String) : Scope :=
  { graph, keyPrefix := d.key ++ ">", namePrefix := d.name ++ "_", interface? := some d.inputs }

/-- Draft a planned node; its name and inputs are added to the build. -/
def Plan.draft (r : Request) (walk : Walk) (p : Plan) : BuildM Draft := do
  let name ← freshName p.base
  let inputs ← buildInputs r walk p.scope p.inst p.nodeDef name p.path
  return { p with name, inputs }

/-- Add a node with its implementation, or the nodes of the graph that implements it. -/
def addNode (r : Request) (walk : Walk) (d : Draft) : BuildM Nat := do
  match implementationOf r d.nodeDef.name with
  | .ok (.inl code) => pushNode (d.node (some code))
  | .ok (.inr graph) =>
    match outputNode? r.document graph "" with
    | some nodeName => walk (d.innerScope graph) nodeName d.isRoot
    | none => pushNode (d.node none)
  | .error cause =>
    if d.isRoot then throw (.unresolvedRoot d.path cause) else pushNode (d.node none)

/-- Build a planned node. -/
def buildPlan (r : Request) (walk : Walk) (p : Plan) : BuildM Nat := do
  addNode r walk (← p.draft r walk)

/-- The node definition that converts the output of a node with inputs of the given types. Only the
output of a node that reads a file is converted. -/
def conversionOf? (r : Request) (e : Element) (inputTypes : List ValueType) (type : ValueType) :
    Option Element :=
  if inputTypes.contains .filename then
    (ColorSpace.declared? r.document e).bind fun source =>
      ColorSpace.transform? r.document source r.options.colorSpace type r.options.target
  else none

/-- Add the conversion between color spaces that has to follow a node, if any. The result is the
node that consumers are to be connected to. -/
def convertColor (r : Request) (walk : Walk) (scope : Scope) (e : Element) (index : Nat)
    (path : String) : BuildM Nat := do
  match (← get).nodes[index]? with
  | none => return index
  | some node =>
    match conversionOf? r e (node.inputs.map (·.type)) node.type with
    | none => return index
    | some nodeDef => buildPlan r walk (.ofConversion scope node index nodeDef path)

/-- Build a node that has a definition. -/
def buildDefinedNode (r : Request) (walk : Walk) (scope : Scope) (e nodeDef : Element)
    (key path : String) (isRoot : Bool) : BuildM Nat := do
  let index ← buildPlan r walk (.ofNode scope e nodeDef key path isRoot)
  convertColor r walk scope e index path

/-- Build a node that has no definition. -/
def buildUndefinedNode (scope : Scope) (e : Element) (path : String) (isRoot : Bool) :
    BuildM Nat := do
  if isRoot then throw (.unresolvedRoot path (.nodeDefNotFound e.category))
  else
    let name ← freshName (scope.namePrefix ++ e.name)
    pushNode
      { name, path, category := e.category, nodeDef := "", type := .ofName e.typeName
        inputs := [], code? := none }

/-- Build the node for an element. -/
def buildElement (r : Request) (walk : Walk) (scope : Scope) (e : Element) (key path : String)
    (isRoot : Bool) : BuildM Nat :=
  match r.document.nodeDefOfNode? e with
  | some nodeDef => buildDefinedNode r walk scope e nodeDef key path isRoot
  | none => buildUndefinedNode scope e path isRoot

/-- Build a node that is not built yet, and mark it as being built meanwhile. -/
def buildNewNode (r : Request) (walk : Walk) (scope : Scope) (key path : String) (isRoot : Bool) :
    BuildM Nat := do
  beginNode key
  match r.document.element? path with
  | none => throw (.noElement path)
  | some e =>
    let index ← buildElement r walk scope e key path isRoot
    endNode key
    recordBuilt key index
    return index

/-- One step of the walk: the node with a name in a scope, built before or now. -/
def buildNodeWith (r : Request) (walk : Walk) : Walk := fun scope name isRoot => do
  let key := scope.keyOf name
  let b ← get
  match Ordered.get? key b.built with
  | some index => return index
  | none =>
    if b.inProgress.contains key then throw (.cycle (scope.pathOf name))
    else buildNewNode r walk scope key (scope.pathOf name) isRoot

/-- The walk up to a depth. -/
def buildNode (r : Request) : Nat → Walk
  | 0 => fun _ _ _ => throw .endlessNesting
  | depth + 1 => buildNodeWith r (buildNode r depth)

/-- A depth that no walk exceeds unless node graphs implement each other: within one scope of keys
every path is met once on the way, and there are no more of them than pairs of a graph and a name,
each written at some element; and scopes nest no deeper than there are node graphs. -/
def depthBound (d : Document) : Nat :=
  (d.root.size + 2) * (d.root.size + 2) * (d.nodeGraphs.length + 2)

/-- Build the node for the element to be drawn. -/
def buildRoot (r : Request) (walk : Walk) (path : String) : BuildM Nat := do
  match r.document.element? path with
  | none => throw (.noElement path)
  | some e =>
    let parent := (Document.splitPath path).1
    if e.category = "shaderref" then
      match r.document.nodeDefOfShaderRef? e with
      | none => throw (.unresolvedRoot path (.nodeDefNotFound path))
      | some nodeDef => buildPlan r walk (.ofShaderRef e nodeDef path)
    else if e.category = "output" then
      match (r.document.element? parent).filter (·.category = "nodegraph") with
      | none => throw (.unsupportedElement path)
      | some graph =>
        match e.filled? "nodename" with
        | none => throw (.unresolvedRoot path (.unsupported path))
        | some nodeName => walk { graph := graph.name } nodeName true
    else walk { graph := parent } e.name true

/-- The root of the graph of the element with a path, and all that was built, by a walk up to a
depth. -/
def buildWithin (r : Request) (depth : Nat) (path : String) :
    Except GenerationError (Nat × Build) :=
  (buildRoot r (buildNode r depth) path).run {}

/-- The graph of what was built for the element with a path. -/
def Build.graph (b : Build) (path : String) (root : Nat) : ShaderGraph :=
  { name := path, nodes := b.nodes, root, uniforms := b.uniforms }

/-- The shader graph of the element with a path, by a walk up to a depth. -/
def graphWithin (r : Request) (depth : Nat) (path : String) :
    Except GenerationError ShaderGraph :=
  (buildWithin r depth path).map fun (root, b) => b.graph path root

/-- The shader graph of the element with a path. -/
def build (r : Request) (path : String) : Except GenerationError ShaderGraph :=
  graphWithin r (depthBound r.document) path

end MaterialViewer.Graph
