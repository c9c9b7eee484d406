import MaterialViewer.Graph.Build

/-!
# Proofs: small documents

Documents made of a few node definitions and nodes, for the examples of the development, and how a
run on such a document is read off its evaluation.
-/

namespace MaterialViewer.Graph.Sample

/-- An input with a type and further attributes. -/
def input (name type : String) (attributes : List (String × String) := []) : Element :=
  { category := "input", name, attributes := ("type", type) :: attributes }

/-- An input of type float that is connected to a node. -/
def link (name node : String) : Element := input name "float" [("nodename", node)]

/-- The node definition of a category. -/
def definition (category type : String) (inputs : List Element) : Element :=
  { category := "nodedef", name := "ND_" ++ category
    attributes := [("node", category), ("type", type)], children := inputs }

/-- The implementation of the definition of a category by an expression. -/
def implementation (category code : String) : Element :=
  { category := "implementation", name := "IM_" ++ category
    attributes := [("nodedef", "ND_" ++ category), ("language", "genglsl"), ("sourcecode", code)] }

/-- A node. -/
def node (category name type : String) (inputs : List Element) : Element :=
  { category, name, attributes := [("type", type)], children := inputs }

/-- The request for a document with the given elements at its top. -/
def request (elements : List Element) (options : GeneratorOptions := {}) : Request :=
  ⟨{ root := { category := Document.rootCategory, name := "", children := elements } }, options,
    .builtin⟩

/-- A successful run is one whose result is known in some respect. -/
theorem exists_ok_of_map {ε α β : Type} {x : Except ε α} {f : α → β} {y : β}
    (h : x.toOption.map f = some y) : ∃ a, x = .ok a ∧ f a = y := by
  cases x with
  | error e => cases h
  | ok a => exact ⟨a, rfl, Option.some.inj h⟩

end MaterialViewer.Graph.Sample
