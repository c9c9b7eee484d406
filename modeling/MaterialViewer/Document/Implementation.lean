import MaterialViewer.Document.Basic

/-!
# Implementations of node definitions

A node definition may have several implementations, one for each shading language and target. For a
given language and target, a record made for just this target wins over one made for the language in
general, and any record wins over a node graph, which serves every target.
-/

namespace MaterialViewer

/-- The shading language and target that shaders are generated for. -/
structure Target where
  /-- The shading language. -/
  language : String
  /-- The target within the language; empty for what is common to all. -/
  target : String
deriving DecidableEq, Inhabited

/-- How a node definition is implemented. -/
inductive Implementation
  /-- By code: a function in a file, or an expression with placeholders. -/
  | source (name : String) (file? function? code? : Option String)
  /-- By a node graph. -/
  | graph (name : String)
deriving DecidableEq

/-- Why no implementation is found. -/
inductive ResolveError
  /-- There is no node definition. -/
  | nodeDefNotFound (name : String)
  /-- The definition is not implemented for the target. -/
  | notImplemented (nodeDef : String) (target : Target)
  /-- The element is not one that has an implementation. -/
  | unsupported (path : String)
deriving DecidableEq

/-- The text of a resolution error. -/
def ResolveError.message : ResolveError → String
  | nodeDefNotFound name => s!"No node definition found for '{name}'"
  | notImplemented nodeDef target =>
    s!"No implementation of '{nodeDef}' for {target.language}/{target.target}"
  | unsupported path => s!"Element '{path}' is not a node, shader reference or graph output"

/-- The name of the implementing element. -/
def Implementation.name : Implementation → String
  | source name _ _ _ => name
  | graph name => name

/-- Whether an implementation record serves a target: it is of its language, and made for this
target or for none in particular. -/
def Target.accepts (t : Target) (record : Element) : Bool :=
  record.attribute? "language" = some t.language &&
    match record.filled? "target" with
    | some target => target = t.target
    | none => true

/-- The implementation that a record describes. -/
def Implementation.ofRecord (record : Element) : Implementation :=
  .source record.name (record.filled? "file") (record.filled? "function")
    (record.filled? "sourcecode")

namespace Document

/-- Whether an element implements the node definition with a name. -/
def implementsDef (nodeDef : String) (e : Element) : Bool := e.attribute? "nodedef" = some nodeDef

/-- The first node graph that implements a node definition. -/
def implementingGraph? (d : Document) (nodeDef : String) : Option Element :=
  d.nodeGraphs.find? (implementsDef nodeDef)

/-- Whether a node definition has an implementation, for a target if one is given. -/
def hasImplementation (d : Document) (nodeDef : String) (target? : Option Target) : Bool :=
  (d.implementingGraph? nodeDef).isSome ||
    d.implementations.any fun record =>
      implementsDef nodeDef record && target?.all (·.accepts record)

/-- The implementation record of a node definition for a target. -/
def implementationRecord? (d : Document) (nodeDef : String) (target : Target) : Option Element :=
  let candidates := d.implementations.filter fun record =>
    implementsDef nodeDef record && target.accepts record
  (candidates.find? fun record => (record.filled? "target").isSome).or candidates.head?

/-- The implementation of a node definition for a target. -/
def resolve (d : Document) (nodeDef : String) (target : Target) :
    Except ResolveError Implementation :=
  if (d.nodeDef? nodeDef).isNone then .error (.nodeDefNotFound nodeDef)
  else
    match d.implementationRecord? nodeDef target with
    | some record => .ok (.ofRecord record)
    | none =>
      match d.implementingGraph? nodeDef with
      | some graph => .ok (.graph graph.name)
      | none => .error (.notImplemented nodeDef target)

/-- The node definition behind the output of a node graph with a path. -/
def nodeDefOfOutput? (d : Document) (path : String) (output : Element) :
    Except ResolveError (Option Element) :=
  match Text.splitAtLast? '/' path.toList with
  | none => .error (.unsupported path)
  | some (graphPath, _) =>
    match (d.element? (String.ofList graphPath)).filter (·.category = "nodegraph") with
    | none => .error (.unsupported path)
    | some graph =>
      match output.filled? "nodename" with
      | none => .error (.unsupported path)
      | some nodeName =>
        match graph.child? nodeName with
        | none => .error (.nodeDefNotFound nodeName)
        | some node => .ok (d.nodeDefOfNode? node)

/-- The name of the node definition behind a shader reference, a node or a graph output. -/
def nodeDefName (d : Document) (path : String) : Except ResolveError String :=
  match d.element? path with
  | none => .error (.unsupported path)
  | some e =>
    let found : Except ResolveError (Option Element) :=
      if e.category = "shaderref" then .ok (d.nodeDefOfShaderRef? e)
      else if e.category = "output" then d.nodeDefOfOutput? path e
      else .ok (d.nodeDefOfNode? e)
    match found with
    | .error e => .error e
    | .ok none => .error (.nodeDefNotFound path)
    | .ok (some nodeDef) => .ok nodeDef.name

/-- The implementation behind a shader reference, a node or a graph output. -/
def resolveElement (d : Document) (path : String) (target : Target) :
    Except ResolveError Implementation :=
  match d.nodeDefName path with
  | .error e => .error e
  | .ok nodeDef => d.resolve nodeDef target

/-! ## References without implementation -/

/-- The implemented node definition to use in place of the one that a shader reference stands for:
the last one for the same category, if the reference's own is not implemented. -/
def alternative? (d : Document) (target? : Option Target) (ref : Element) : Option Element :=
  match d.nodeDefOfShaderRef? ref with
  | none => none
  | some nodeDef =>
    if d.hasImplementation nodeDef.name target? then none
    else
      match nodeDef.attribute? "node" with
      | none => none
      | some category =>
        ((d.nodeDefsFor category).filter fun other =>
          other.name ≠ nodeDef.name && d.hasImplementation other.name target?).getLast?

/-- The paths of the shader references that are to use another node definition, with its name. -/
def replacements (d : Document) (target? : Option Target) : List (String × String) :=
  d.materials.flatMap fun material =>
    (shaderRefs material).filterMap fun ref =>
      (d.alternative? target? ref).map fun nodeDef =>
        (material.name ++ "/" ++ ref.name, nodeDef.name)

/-- Let one shader reference use another node definition. -/
def redirect (d : Document) (replacement : String × String) : Document :=
  (d.modify? (·.setAttribute "nodedef" replacement.2) replacement.1).getD d

/-- The document in which shader references use implemented node definitions where their own are
not implemented. -/
def redirectUnimplemented (d : Document) (target? : Option Target) : Document :=
  (d.replacements target?).foldl redirect d

end Document

end MaterialViewer
