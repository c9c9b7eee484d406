import MaterialViewer.Graph.Node

/-!
# The order of a shader graph

The nodes that the root depends on, each after the nodes that its inputs are connected to. The order
is found depth first; a node met again on the way to itself shows a cycle.
-/

namespace MaterialViewer.ShaderGraph

/-- The order after adding a node and all that it depends on to the order so far. `path` are the
nodes that depend on it, on the way from the root; `depth` bounds the length of such a way. There is
none if the graph has a cycle. -/
def visit (g : ShaderGraph) : Nat → List Nat → List Nat → Nat → Option (List Nat)
  | 0, _, _, _ => none
  | depth + 1, path, order, index =>
    if path.contains index then none
    else if order.contains index then some order
    else
      ((g.sources index).foldlM (visit g depth (index :: path)) order).map (· ++ [index])

/-- The nodes that the root depends on and the root itself, each after those it depends on; none if
the graph has a cycle. -/
def order? (g : ShaderGraph) : Option (List Nat) := g.visit (g.nodes.length + 2) [] [] g.root

end MaterialViewer.ShaderGraph
