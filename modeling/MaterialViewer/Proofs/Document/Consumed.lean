import Mathlib.Tactic.ByContra
import MaterialViewer.Document.Renderable
import MaterialViewer.Graph.Build
import MaterialViewer.Proofs.Document.Siblings

/-!
# Proofs: outputs that shader references use

The output of a node graph is drawn by itself if no shader reference uses it. Which outputs are used
is decided twice: when a document is searched for what can be drawn, by the names in the bindings of
shader references, and when a graph is built, by following a binding to the output of a node graph.
The two decide alike for the outputs of a node graph exactly if what parameters are connected to is
also named by inputs, and inputs that name the node graph alone leave no output out.
-/

namespace MaterialViewer.Document

variable {d : Document} {graph binding output : Element}

/-- The inputs and parameters that the shader references of materials bind. -/
def bindings (d : Document) : List Element :=
  d.materials.flatMap fun material =>
    (shaderRefs material).flatMap fun ref =>
      ref.children.filter fun c => c.category = "bindinput" || c.category = "bindparam"

/-- The name of the output that a binding uses; empty if it does not name one. -/
def outputName (binding : Element) : String := (binding.attribute? "output").getD ""

/-- A binding is connected to an output of a node graph: it names the graph and the output, or the
graph alone, of which the output is the first. -/
structure IsConnected (binding graph output : Element) : Prop where
  sameGraph : binding.filled? "nodegraph" = some graph.name
  sameOutput : outputName binding ≠ "" ∧ outputName binding = output.name ∨
    outputName binding = "" ∧ (graph.childrenOf "output").head? = some output

/-- An input names a node graph, and an output of it or none. -/
structure Consumes (binding graph output : Element) : Prop where
  category : binding.category = "bindinput"
  sameGraph : binding.filled? "nodegraph" = some graph.name
  sameOutput : outputName binding = output.name ∨ outputName binding = ""

/-- The outputs of a node graph that are found to be drawn. -/
def drawnOutputs (d : Document) (graph : Element) : List Element :=
  (graph.childrenOf "output").filter fun output =>
    !d.consumedOutputs.contains (graph.name, output.name) &&
      !d.consumedOutputs.contains (graph.name, "")

/-- The outputs of a node graph that are drawn are those to which nothing is connected. -/
def OutputsAgree (d : Document) (graph : Element) : Prop :=
  ∀ output ∈ graph.childrenOf "output",
    (output ∈ d.drawnOutputs graph ↔ ∀ binding ∈ d.bindings, ¬ IsConnected binding graph output)

/-! ## What is found to be used -/

theorem mem_consumedOutputs {graphName name : String} :
    (graphName, name) ∈ d.consumedOutputs ↔ ∃ binding ∈ d.bindings,
      binding.category = "bindinput" ∧ binding.filled? "nodegraph" = some graphName ∧
        outputName binding = name := by
  have hbinding (binding : Element) : consumedOutput? binding = some (graphName, name) ↔
      binding.filled? "nodegraph" = some graphName ∧ outputName binding = name := by
    unfold consumedOutput? outputName
    cases binding.filled? "nodegraph" <;> simp
  unfold consumedOutputs bindings Element.childrenOf
  simp only [List.mem_flatMap, List.mem_filterMap, List.mem_filter, hbinding]
  constructor
  · rintro ⟨material, hmaterial, ref, href, binding, ⟨hmem, hcategory⟩, hnames⟩
    have hcategory : binding.category = "bindinput" := of_decide_eq_true hcategory
    exact ⟨binding, ⟨material, hmaterial, ref, href, hmem, by simp [hcategory]⟩, hcategory, hnames⟩
  · rintro ⟨binding, ⟨material, hmaterial, ref, href, hmem, -⟩, hcategory, hnames⟩
    exact ⟨material, hmaterial, ref, href, binding, ⟨hmem, decide_eq_true hcategory⟩, hnames⟩

/-- An output is drawn if no input names it or its graph alone. -/
theorem mem_drawnOutputs (houtput : output ∈ graph.childrenOf "output") :
    output ∈ d.drawnOutputs graph ↔ ∀ binding ∈ d.bindings, ¬ Consumes binding graph output := by
  have hnot (name : String) : (!d.consumedOutputs.contains (graph.name, name)) = true ↔
      ∀ binding ∈ d.bindings, ¬ (binding.category = "bindinput" ∧
        binding.filled? "nodegraph" = some graph.name ∧ outputName binding = name) := by
    rw [Bool.not_eq_true', ← Bool.not_eq_true, List.contains_iff_mem, mem_consumedOutputs]
    simp only [not_exists, not_and]
  rw [drawnOutputs, List.mem_filter, Bool.and_eq_true, hnot, hnot]
  constructor
  · rintro ⟨-, hnamed, hunnamed⟩ binding hbinding ⟨hcategory, hgraph, hname | hname⟩
    · exact hnamed binding hbinding ⟨hcategory, hgraph, hname⟩
    · exact hunnamed binding hbinding ⟨hcategory, hgraph, hname⟩
  · intro hnone
    refine ⟨houtput, fun binding hbinding h => ?_, fun binding hbinding h => ?_⟩
    · exact hnone binding hbinding ⟨h.1, h.2.1, .inl h.2.2⟩
    · exact hnone binding hbinding ⟨h.1, h.2.1, .inr h.2.2⟩

/-! ## What is followed -/

/-- An input that is connected to an output names it or its graph alone. -/
theorem IsConnected.consumes (h : IsConnected binding graph output)
    (hcategory : binding.category = "bindinput") : Consumes binding graph output := by
  refine ⟨hcategory, h.sameGraph, ?_⟩
  rcases h.sameOutput with ⟨-, hname⟩ | ⟨hname, -⟩
  · exact .inl hname
  · exact .inr hname

theorem category_of_mem_bindings (h : binding ∈ d.bindings) :
    binding.category = "bindinput" ∨ binding.category = "bindparam" := by
  obtain ⟨material, -, h⟩ := List.mem_flatMap.mp h
  obtain ⟨ref, -, h⟩ := List.mem_flatMap.mp h
  simpa using (List.mem_filter.mp h).2

/-- The output that the walk along a binding comes to is the one that it is connected to. -/
theorem find?_output_iff (hnames : ((graph.childrenOf "output").map (·.name)).Nodup)
    (hgraph : binding.filled? "nodegraph" = some graph.name) :
    ((graph.childrenOf "output").find? fun o =>
        outputName binding = "" || o.name = outputName binding) = some output ↔
      output ∈ graph.childrenOf "output" ∧ IsConnected binding graph output := by
  by_cases hname : outputName binding = ""
  · have hfirst : ((graph.childrenOf "output").find? fun o =>
        outputName binding = "" || o.name = outputName binding) =
          (graph.childrenOf "output").head? := by
      cases graph.childrenOf "output" <;> simp [hname]
    rw [hfirst]
    constructor
    · exact fun h => ⟨List.mem_of_head? h, hgraph, .inr ⟨hname, h⟩⟩
    · rintro ⟨-, h⟩
      rcases h.sameOutput with ⟨hne, -⟩ | ⟨-, hhead⟩
      · exact absurd hname hne
      · exact hhead
  · have hnamed : ((graph.childrenOf "output").find? fun o =>
        outputName binding = "" || o.name = outputName binding) =
          (graph.childrenOf "output").find? (·.name = outputName binding) := by
      simp [hname]
    rw [hnamed]
    constructor
    · intro h
      have hfound : output.name = outputName binding := by simpa using List.find?_some h
      exact ⟨List.mem_of_find?_eq_some h, hgraph, .inl ⟨hname, hfound.symm⟩⟩
    · rintro ⟨hmem, h⟩
      rcases h.sameOutput with ⟨-, hfound⟩ | ⟨hempty, -⟩
      · rw [hfound]
        exact Element.find?_name hnames hmem
      · exact absurd hempty hname

/-- Along a binding without a node of its own, the walk through the document goes on at the node of
the output that the binding is connected to. -/
theorem linkOf_eq_output_iff {name : String} (h : d.WellNamed) (hgraph : graph ∈ d.nodeGraphs)
    (hnode : binding.filled? "nodename" = none)
    (hbinding : binding.filled? "nodegraph" = some graph.name) :
    Graph.linkOf d "" binding = .output graph.name name ↔
      ∃ output ∈ graph.childrenOf "output",
        IsConnected binding graph output ∧ output.filled? "nodename" = some name := by
  have hmem : graph ∈ d.root.children := (List.mem_filter.mp hgraph).1
  have hnames : ((graph.childrenOf "output").map (·.name)).Nodup :=
    ((h.children hmem).filter _).nodup
  have hfound : d.element? graph.name = some graph := element?_of_mem h.top hmem
  have hlink : Graph.linkOf d "" binding = .output graph.name name ↔
      Graph.outputNode? d graph.name (outputName binding) = some name := by
    unfold Graph.linkOf
    simp only [hnode, hbinding]
    rw [← outputName]
    cases Graph.outputNode? d graph.name (outputName binding) <;> simp
  rw [hlink, Graph.outputNode?, hfound, Option.bind_some, Option.bind_eq_some_iff]
  simp only [find?_output_iff hnames hbinding, and_assoc]

/-! ## Where the two agree -/

/-- The outputs that are found to be drawn are those that no binding is connected to exactly if

* each output that a parameter is connected to is named by an input, or its graph alone is, and
* if an input names the graph alone, some binding is connected to each output.

Being connected is what the walk goes by when a graph is built. -/
theorem renderableOutputs_agree_iff (d : Document) :
    (d.renderableOutputs =
      (d.nodeGraphs.filter fun graph =>
        graph.sourceUri.isNone && !graph.hasAttribute "nodedef").flatMap fun graph =>
          (d.drawnOutputs graph).map fun output =>
            ⟨Element.joinPath graph.name output.name, .output⟩) ∧
      (d.WellNamed → ∀ graph ∈ d.nodeGraphs, ∀ binding name,
        binding.filled? "nodename" = none → binding.filled? "nodegraph" = some graph.name →
          (Graph.linkOf d "" binding = .output graph.name name ↔
            ∃ output ∈ graph.childrenOf "output",
              IsConnected binding graph output ∧ output.filled? "nodename" = some name)) ∧
      ∀ graph, d.OutputsAgree graph ↔
        (∀ binding ∈ d.bindings, binding.category = "bindparam" →
          ∀ output ∈ graph.childrenOf "output", IsConnected binding graph output →
            ∃ input ∈ d.bindings, Consumes input graph output) ∧
        ∀ binding ∈ d.bindings, binding.category = "bindinput" →
          binding.filled? "nodegraph" = some graph.name → outputName binding = "" →
            ∀ output ∈ graph.childrenOf "output",
              ∃ other ∈ d.bindings, IsConnected other graph output := by
  refine ⟨rfl, fun h graph hgraph binding name => linkOf_eq_output_iff h hgraph,
    fun graph => ⟨fun h => ⟨?_, ?_⟩, ?_⟩⟩
  · intro binding hbinding hcategory output houtput hconnected
    by_contra! hnone
    have hdrawn := (mem_drawnOutputs houtput).mpr hnone
    exact (h output houtput).mp hdrawn binding hbinding hconnected
  · intro binding hbinding hcategory hgraph hname output houtput
    by_contra! hnone
    have hdrawn := (h output houtput).mpr hnone
    exact (mem_drawnOutputs houtput).mp hdrawn binding hbinding ⟨hcategory, hgraph, .inr hname⟩
  · rintro ⟨hparams, hunnamed⟩ output houtput
    rw [mem_drawnOutputs houtput]
    constructor
    · intro hnone binding hbinding hconnected
      rcases category_of_mem_bindings hbinding with hcategory | hcategory
      · exact hnone binding hbinding (hconnected.consumes hcategory)
      · obtain ⟨input, hinput, hconsumes⟩ :=
          hparams binding hbinding hcategory output houtput hconnected
        exact hnone input hinput hconsumes
    · rintro hnone binding hbinding ⟨hcategory, hgraph, hname⟩
      by_cases hempty : outputName binding = ""
      · obtain ⟨other, hother, hconnected⟩ :=
          hunnamed binding hbinding hcategory hgraph hempty output houtput
        exact hnone other hother hconnected
      · have hname := hname.resolve_right hempty
        exact hnone binding hbinding ⟨hgraph, .inl ⟨hempty, hname⟩⟩

/-! ## One node graph and one binding -/

/-- An output that is connected to a node. -/
def boundOutput (name : String) : Element where
  category := "output"
  name := name
  attributes := [("nodename", "n")]

/-- A node graph of two outputs. -/
def boundGraph : Element where
  category := "nodegraph"
  name := "ng"
  children := [boundOutput "base", boundOutput "loose"]

/-- A binding of the given category that names the node graph, with further attributes. -/
def bindingOf (category : String) (attributes : List (String × String) := []) : Element where
  category := category
  name := "color"
  attributes := ("nodegraph", "ng") :: attributes

/-- The node graph, and a material with the binding. -/
def boundDocument (binding : Element) : Document where
  root := {
    category := rootCategory
    name := ""
    children := [
      boundGraph,
      { category := "material", name := "M"
        children := [{ category := "shaderref", name := "sr", children := [binding] }] }] }

theorem bindings_boundDocument {binding : Element}
    (h : binding.category = "bindinput" ∨ binding.category = "bindparam") :
    (boundDocument binding).bindings = [binding] := by
  have hmaterials : (boundDocument binding).materials =
      [{ category := "material", name := "M"
         children := [{ category := "shaderref", name := "sr", children := [binding] }] }] := rfl
  have hkept : (binding.category = "bindinput" || binding.category = "bindparam") = true := by
    simpa using h
  rw [bindings, hmaterials]
  simp [shaderRefs, Element.childrenOf, hkept]

theorem mem_outputs_boundGraph {o : Element} :
    o ∈ boundGraph.childrenOf "output" ↔ o = boundOutput "base" ∨ o = boundOutput "loose" := by
  simp [boundGraph, Element.childrenOf, boundOutput]

/-- An output that an input names is used, and the other output is drawn. -/
theorem renderableOutputs_agree_iff_named :
    (boundDocument (bindingOf "bindinput" [("output", "base")])).OutputsAgree boundGraph ∧
      (boundDocument (bindingOf "bindinput" [("output", "base")])).renderableOutputs =
        [⟨"ng/loose", .output⟩] := by
  refine ⟨((renderableOutputs_agree_iff _).2.2 boundGraph).mpr ⟨?_, ?_⟩, by decide +kernel⟩
  · intro binding hbinding hcategory
    rw [bindings_boundDocument (.inl rfl), List.mem_singleton] at hbinding
    subst hbinding
    exact absurd hcategory (by decide)
  · intro binding hbinding _ _ hname
    rw [bindings_boundDocument (.inl rfl), List.mem_singleton] at hbinding
    subst hbinding
    exact absurd hname (by decide)

/-- A parameter that is connected to an output is not noticed, and an input that names the node
graph alone takes both outputs. -/
theorem not_outputsAgree :
    (boundGraph.sourceUri = none ∧ boundGraph.hasAttribute "nodedef" = false ∧
      boundGraph ∈ (boundDocument (bindingOf "bindparam" [("output", "base")])).nodeGraphs ∧
      ¬ (boundDocument (bindingOf "bindparam" [("output", "base")])).OutputsAgree boundGraph) ∧
    (boundGraph ∈ (boundDocument (bindingOf "bindinput")).nodeGraphs ∧
      ¬ (boundDocument (bindingOf "bindinput")).OutputsAgree boundGraph) := by
  refine ⟨⟨rfl, rfl, List.mem_singleton_self _, fun h => ?_⟩, List.mem_singleton_self _,
    fun h => ?_⟩
  · have hmem : boundOutput "base" ∈ boundGraph.childrenOf "output" :=
      mem_outputs_boundGraph.mpr (.inl rfl)
    have hdrawn : boundOutput "base" ∈
        (boundDocument (bindingOf "bindparam" [("output", "base")])).drawnOutputs boundGraph := by
      refine (mem_drawnOutputs hmem).mpr fun binding hbinding hconsumes => ?_
      rw [bindings_boundDocument (.inr rfl), List.mem_singleton] at hbinding
      rw [hbinding] at hconsumes
      exact absurd hconsumes.category (by decide)
    refine (h _ hmem).mp hdrawn (bindingOf "bindparam" [("output", "base")]) ?_
      ⟨rfl, .inl ⟨by decide, rfl⟩⟩
    rw [bindings_boundDocument (.inr rfl)]
    exact List.mem_singleton_self _
  · have hmem : boundOutput "loose" ∈ boundGraph.childrenOf "output" :=
      mem_outputs_boundGraph.mpr (.inr rfl)
    have hfree : ∀ binding ∈ (boundDocument (bindingOf "bindinput")).bindings,
        ¬ IsConnected binding boundGraph (boundOutput "loose") := by
      intro binding hbinding hconnected
      rw [bindings_boundDocument (.inl rfl), List.mem_singleton] at hbinding
      subst hbinding
      rcases hconnected.sameOutput with ⟨hname, -⟩ | ⟨-, hfirst⟩
      · exact hname rfl
      · have hname := congrArg (·.map (·.name)) hfirst
        revert hname
        decide
    refine (mem_drawnOutputs hmem).mp ((h _ hmem).mpr hfree) (bindingOf "bindinput") ?_
      ⟨rfl, rfl, .inr rfl⟩
    rw [bindings_boundDocument (.inl rfl)]
    exact List.mem_singleton_self _

end MaterialViewer.Document
