import MaterialViewer.Graph.Registry
import MaterialViewer.Shader.Variable

/-!
# Shader graphs

A shader graph is a list of nodes, each with inputs that take their values from other nodes, from
public uniforms or from literals. One node is the root: it computes what is drawn.
-/

namespace MaterialViewer

/-- How the output of a node is computed. -/
inductive NodeCode
  /-- By code that the document supplies: an expression with placeholders, or a function that may
  be defined in a file. -/
  | source (name : String) (file? function? code? : Option String)
  /-- By reading geometry. -/
  | geometry (reader : GeometryReader)
deriving DecidableEq

/-- Where an input takes its value from. -/
inductive InputBinding
  /-- The output of the node at an index. -/
  | connection (index : Nat)
  /-- A public uniform. -/
  | uniform (name : String)
  /-- A value written into the code. -/
  | constant (value : Value)
  /-- Nowhere: shaders cannot take such a value. -/
  | unbound
deriving DecidableEq

/-- An input of a node. -/
structure ShaderInput where
  /-- The name. -/
  name : String
  /-- The type. -/
  type : ValueType
  /-- Where the value is taken from. -/
  binding : InputBinding
  /-- The value that the document gives or that is the default; none for a connection. -/
  value? : Option Value
deriving DecidableEq

/-- A node of a shader graph. -/
structure ShaderNode where
  /-- An identifier that no other node has. -/
  name : String
  /-- The path of the element that the node stands for. -/
  path : String
  /-- The category of the node. -/
  category : String
  /-- The name of the node definition; empty if there is none. -/
  nodeDef : String
  /-- The type of the output. -/
  type : ValueType
  /-- The inputs in the order of the node definition. -/
  inputs : List ShaderInput
  /-- How the output is computed; without it the output is the default of its type. -/
  code? : Option NodeCode
deriving DecidableEq

/-- The nodes from which one element is drawn. -/
structure ShaderGraph where
  /-- The path of the element. -/
  name : String
  /-- The nodes. -/
  nodes : List ShaderNode
  /-- The index of the node that computes what is drawn. -/
  root : Nat
  /-- The public uniforms in the order of their discovery. -/
  uniforms : VariableBlock
deriving DecidableEq

namespace ShaderNode

/-- The input with a name. -/
def input? (n : ShaderNode) (name : String) : Option ShaderInput :=
  n.inputs.find? (·.name = name)

/-- The variable that holds the output. -/
def outputVariable (n : ShaderNode) : String := n.name ++ "_out"

/-- The indices of the nodes that the inputs are connected to. -/
def sources (n : ShaderNode) : List Nat :=
  n.inputs.filterMap fun input =>
    match input.binding with
    | .connection index => some index
    | _ => none

end ShaderNode

namespace ShaderGraph

/-- The node that computes what is drawn. -/
def rootNode? (g : ShaderGraph) : Option ShaderNode := g.nodes[g.root]?

/-- The indices of the nodes that a node takes values from. -/
def sources (g : ShaderGraph) (index : Nat) : List Nat :=
  match g.nodes[index]? with
  | some node => node.sources
  | none => []

end ShaderGraph

end MaterialViewer
