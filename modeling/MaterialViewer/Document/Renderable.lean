import MaterialViewer.Document.Implementation

/-!
# Renderable elements

What can be drawn of a document by itself: shader references of materials whose node definition is
implemented, and the outputs of node graphs that no shader reference uses. Elements of libraries are
not drawn.
-/

namespace MaterialViewer

/-- The kinds of renderable elements. -/
inductive RenderableKind
  | shaderRef
  | output
deriving DecidableEq, Repr

/-- An element that can be drawn, by its path. -/
structure Renderable where
  /-- The path of the element in its document. -/
  path : String
  /-- What kind of element it is. -/
  kind : RenderableKind
deriving DecidableEq, Repr

/-- The last name of the path of a renderable element. -/
def Renderable.name (r : Renderable) : String := (Document.splitPath r.path).2

namespace Document

/-- The node graph and output that a binding of a shader reference uses; the output is empty if the
binding does not name one. -/
def consumedOutput? (binding : Element) : Option (String × String) :=
  (binding.filled? "nodegraph").map fun graph => (graph, (binding.attribute? "output").getD "")

/-- The outputs of node graphs that inputs of shader references use. -/
def consumedOutputs (d : Document) : List (String × String) :=
  d.materials.flatMap fun material =>
    (shaderRefs material).flatMap fun ref => (ref.childrenOf "bindinput").filterMap consumedOutput?

/-- The renderable shader references. -/
def renderableShaderRefs (d : Document) (target? : Option Target) : List Renderable :=
  (d.materials.filter (·.sourceUri.isNone)).flatMap fun material =>
    ((shaderRefs material).filter fun ref =>
      (d.nodeDefOfShaderRef? ref).any fun nodeDef => d.hasImplementation nodeDef.name target?).map
        fun ref => ⟨Element.joinPath material.name ref.name, .shaderRef⟩

/-- The renderable outputs of node graphs. -/
def renderableOutputs (d : Document) : List Renderable :=
  let consumed := d.consumedOutputs
  (d.nodeGraphs.filter fun graph => graph.sourceUri.isNone && !graph.hasAttribute "nodedef").flatMap
    fun graph =>
      ((graph.childrenOf "output").filter fun output =>
        !consumed.contains (graph.name, output.name) && !consumed.contains (graph.name, "")).map
          fun output => ⟨Element.joinPath graph.name output.name, .output⟩

/-- The renderable elements: first the shader references, then the outputs. -/
def renderables (d : Document) (target? : Option Target) : List Renderable :=
  d.renderableShaderRefs target? ++ d.renderableOutputs

end Document

end MaterialViewer
