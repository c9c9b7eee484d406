import MaterialViewer.Proofs.Document.Siblings
import MaterialViewer.Proofs.Graph.Sample
import MaterialViewer.Proofs.Graph.Steps

/-!
# Proofs: what is resolved and what is drawn

The node definition behind an element is looked up twice: when the element is resolved, and by the
builder, before the walk begins at its root. Both tell shader references, outputs and nodes apart,
but the builder looks the node up once more, by a path that it puts together from the name of the
node and the path around it. Where that path leads to the node that the element is resolved to, the
root is an instance of the definition that is resolved.

It does not always lead there. The builder takes the name of a node graph for its path, so outputs
of nested node graphs are not found, and it takes what is before the last slash for the path around
a node, so nodes are not found if a slash ends their path.
-/

namespace MaterialViewer

namespace Document

variable {d : Document} {path : String}

/-- An element is resolved to a node definition. -/
inductive ResolvesTo (d : Document) (path : String) (nodeDef : Element) : Prop
  | shaderRef {e : Element} (helement : d.element? path = some e)
      (hcategory : e.category = "shaderref") (hdef : d.nodeDefOfShaderRef? e = some nodeDef) :
      ResolvesTo d path nodeDef
  | output {e graph node : Element} {name : String} (helement : d.element? path = some e)
      (hcategory : e.category = "output")
      (hgraph : (d.element? (splitPath path).1).filter (·.category = "nodegraph") = some graph)
      (hname : e.filled? "nodename" = some name) (hnode : graph.child? name = some node)
      (hdef : d.nodeDefOfNode? node = some nodeDef) : ResolvesTo d path nodeDef
  | node {e : Element} (helement : d.element? path = some e) (href : e.category ≠ "shaderref")
      (houtput : e.category ≠ "output") (hdef : d.nodeDefOfNode? e = some nodeDef) :
      ResolvesTo d path nodeDef

theorem ne_shaderref_of_output {category : String} (h : category = "output") :
    category ≠ "shaderref" := by
  rw [h]
  decide

/-- The node graph around an output, by either way of cutting its path. -/
theorem nodeDefOfOutput?_eq (d : Document) (path : String) (output : Element) :
    d.nodeDefOfOutput? path output =
      match (d.element? (splitPath path).1).filter (·.category = "nodegraph") with
      | none => .error (.unsupported path)
      | some graph =>
        match output.filled? "nodename" with
        | none => .error (.unsupported path)
        | some name =>
          match graph.child? name with
          | none => .error (.nodeDefNotFound name)
          | some node => .ok (d.nodeDefOfNode? node) := by
  unfold nodeDefOfOutput? splitPath
  cases Text.splitAtLast? '/' path.toList with
  | none => rfl
  | some parts => rfl

theorem nodeDefName_eq_ok_iff {name : String} :
    d.nodeDefName path = .ok name ↔ ∃ nodeDef, d.ResolvesTo path nodeDef ∧ nodeDef.name = name := by
  constructor
  · intro h
    unfold nodeDefName at h
    cases helement : d.element? path with
    | none => simp only [helement, reduceCtorEq] at h
    | some e =>
      simp only [helement] at h
      split at h
      · cases h
      · cases h
      · rename_i nodeDef hfound
        refine ⟨nodeDef, ?_, Except.ok.inj h⟩
        split at hfound
        · rename_i href
          exact .shaderRef helement href (Except.ok.inj hfound)
        · rename_i href
          split at hfound
          · rename_i houtput
            rw [nodeDefOfOutput?_eq] at hfound
            split at hfound
            · cases hfound
            · rename_i graph hgraph
              split at hfound
              · cases hfound
              · rename_i nodeName hname
                split at hfound
                · cases hfound
                · rename_i node hnode
                  exact .output helement houtput hgraph hname hnode (Except.ok.inj hfound)
          · rename_i houtput
            exact .node helement href houtput (Except.ok.inj hfound)
  · rintro ⟨nodeDef, hresolves, rfl⟩
    cases hresolves with
    | shaderRef helement hcategory hdef =>
      simp only [nodeDefName, helement, if_pos hcategory, hdef]
    | output helement hcategory hgraph hname hnode hdef =>
      simp only [nodeDefName, helement, if_neg (ne_shaderref_of_output hcategory), if_pos hcategory,
        nodeDefOfOutput?_eq, hgraph, hname, hnode, hdef]
    | node helement href houtput hdef =>
      simp only [nodeDefName, helement, if_neg href, if_neg houtput, hdef]

/-- An element is resolved to a definition of the document, so its implementation is looked for. -/
theorem resolve_ne_nodeDefNotFound {nodeDef : Element} (h : d.ResolvesTo path nodeDef)
    (target : Target) (missing : String) :
    d.resolve nodeDef.name target ≠ .error (.nodeDefNotFound missing) := by
  have hmem : nodeDef ∈ d.nodeDefs := by
    cases h with
    | shaderRef _ _ hdef => exact mem_nodeDefs_of_shaderRef hdef
    | output _ _ _ _ _ hdef => exact mem_nodeDefs_of_node hdef
    | node _ _ _ hdef => exact mem_nodeDefs_of_node hdef
  have hknown : ¬ (d.nodeDef? nodeDef.name).isNone := by
    rw [nodeDef?, Option.isNone_iff_eq_none, List.find?_eq_none]
    exact fun hnone => hnone nodeDef hmem (decide_eq_true rfl)
  unfold resolve
  rw [if_neg hknown]
  split
  · nofun
  · split <;> nofun

/-- The path that the builder puts together for the root leads to the node that is resolved. -/
structure FindsRoot (d : Document) (path : String) : Prop where
  output : ∀ e graph name, d.element? path = some e → e.category = "output" →
    (d.element? (splitPath path).1).filter (·.category = "nodegraph") = some graph →
    e.filled? "nodename" = some name →
    d.element? (Element.joinPath graph.name name) = graph.child? name
  node : ∀ e, d.element? path = some e → e.category ≠ "shaderref" → e.category ≠ "output" →
    d.element? (Element.joinPath (splitPath path).1 e.name) = some e

theorem element?_joinPath {name : String} (hname : '/' ∉ name.toList) (hne : name ≠ "")
    (graph : String) :
    d.element? (Element.joinPath graph name) = (d.root.descendant? graph).bind (·.child? name) := by
  have hpath : Element.joinPath graph name ≠ "" := by
    unfold Element.joinPath
    split
    · exact hne
    · simp [String.append_eq_empty_iff]
  rw [element?, if_neg hpath, Element.descendant?_joinPath hname hne]

/-- The root is found for a path that ends with a name, unless it leads to an output: then the node
graph of the output has to be found under its own name, and the node to be named without a slash. -/
theorem findsRoot_joinPath {graph name : String} (hname : '/' ∉ name.toList) (hne : name ≠ "")
    (houtput : ∀ e g target, d.element? (Element.joinPath graph name) = some e →
      e.category = "output" → d.element? graph = some g → e.filled? "nodename" = some target →
      d.element? g.name = some g ∧ '/' ∉ target.toList) :
    d.FindsRoot (Element.joinPath graph name) := by
  have hsplit : splitPath (Element.joinPath graph name) = (graph, name) := splitPath_joinPath hname
  constructor
  · intro e g target helement hcategory hgraph htarget
    rw [hsplit] at hgraph
    obtain ⟨hgraph, -⟩ := Option.filter_eq_some_iff.mp hgraph
    obtain ⟨hown, hplain⟩ := houtput e g target helement hcategory hgraph htarget
    have hfilled : target ≠ "" := of_decide_eq_true (Option.filter_eq_some_iff.mp htarget).2
    obtain ⟨-, hown⟩ := Option.ite_none_left_eq_some.mp hown
    rw [element?_joinPath hplain hfilled, hown, Option.bind_some]
  · intro e helement _ _
    rw [hsplit]
    rw [element?_joinPath hname hne] at helement
    obtain ⟨parent, -, hchild⟩ := Option.bind_eq_some_iff.mp helement
    rw [Element.child?_name hchild, element?_joinPath hname hne, helement]

end Document

namespace Graph

variable {r : Request} {path : String} {p : Plan}

/-! ## The root of a build -/

/-- The plan of the root that has a name in a node graph. -/
def Plan.ofRoot (graph name : String) (e nodeDef : Element) : Plan :=
  let scope : Scope := { graph }
  .ofNode scope e nodeDef (scope.keyOf name) (scope.pathOf name) true

/-- The builder finds the root and its definition, and plans the node. -/
inductive PlansRoot (d : Document) (path : String) : Plan → Prop
  | shaderRef {e nodeDef : Element} (helement : d.element? path = some e)
      (hcategory : e.category = "shaderref") (hdef : d.nodeDefOfShaderRef? e = some nodeDef) :
      PlansRoot d path (.ofShaderRef e nodeDef path)
  | output {e graph node nodeDef : Element} {name : String} (helement : d.element? path = some e)
      (hcategory : e.category = "output")
      (hgraph : (d.element? (Document.splitPath path).1).filter (·.category = "nodegraph") =
        some graph)
      (hname : e.filled? "nodename" = some name)
      (hnode : d.element? (Element.joinPath graph.name name) = some node)
      (hdef : d.nodeDefOfNode? node = some nodeDef) :
      PlansRoot d path (.ofRoot graph.name name node nodeDef)
  | node {e node nodeDef : Element} (helement : d.element? path = some e)
      (href : e.category ≠ "shaderref") (houtput : e.category ≠ "output")
      (hnode : d.element? (Element.joinPath (Document.splitPath path).1 e.name) = some node)
      (hdef : d.nodeDefOfNode? node = some nodeDef) :
      PlansRoot d path (.ofRoot (Document.splitPath path).1 e.name node nodeDef)

/-- Build a planned root, by a walk up to a depth. Nothing is looked up for the root any more. -/
def buildPlannedRoot (r : Request) (p : Plan) (depth : Nat) : BuildM Nat :=
  match p.inst with
  | .node e => do
    beginNode p.key
    let index ← buildPlan r (buildNode r (depth - 1)) p
    let index ← convertColor r (buildNode r (depth - 1)) p.scope e index p.path
    endNode p.key
    recordBuilt p.key index
    return index
  | _ => buildPlan r (buildNode r depth) p

/-- The walk begins at a root that is found with its definition. -/
theorem buildNode_root {graph name : String} {e nodeDef : Element} (depth : Nat)
    (helement : r.document.element? (Element.joinPath graph name) = some e)
    (hdef : r.document.nodeDefOfNode? e = some nodeDef) :
    buildNode r (depth + 1) { graph } name true {} =
      buildPlannedRoot r (.ofRoot graph name e nodeDef) (depth + 1) {} := by
  have hpath : r.document.element? (Scope.pathOf { graph } name) = some e := helement
  show buildNewNode r (buildNode r depth) { graph } (Scope.keyOf { graph } name)
    (Scope.pathOf { graph } name) true {} = _
  unfold buildNewNode buildElement
  simp only [hpath, hdef, buildDefinedNode, bind_assoc]
  rfl

theorem exists_depthBound (d : Document) : ∃ depth, depthBound d = depth + 1 :=
  Nat.exists_eq_succ_of_ne_zero (by simp [depthBound])

/-- A graph is the result of building its planned root. -/
theorem PlansRoot.build_eq (h : PlansRoot r.document path p) : build r path =
    (buildPlannedRoot r p (depthBound r.document) {}).map fun (root, b) => b.graph path root := by
  obtain ⟨depth, hdepth⟩ := exists_depthBound r.document
  have hrun : buildRoot r (buildNode r (depth + 1)) path {} =
      buildPlannedRoot r p (depth + 1) {} := by
    unfold buildRoot
    cases h with
    | shaderRef helement hcategory hdef =>
      simp only [helement, if_pos hcategory, hdef]
      rfl
    | output helement hcategory hgraph hname hnode hdef =>
      simp only [helement, if_neg (Document.ne_shaderref_of_output hcategory), if_pos hcategory,
        hgraph, hname]
      exact buildNode_root depth hnode hdef
    | node helement href houtput hnode hdef =>
      simp only [helement, if_neg href, if_neg houtput]
      exact buildNode_root depth hnode hdef
  unfold build graphWithin buildWithin
  rw [hdepth]
  exact congrArg (Except.map _) hrun

/-- There is no graph without a root that is found with its definition. -/
theorem plansRoot_of_build {g : ShaderGraph} (h : build r path = .ok g) :
    ∃ p, PlansRoot r.document path p := by
  obtain ⟨depth, hdepth⟩ := exists_depthBound r.document
  obtain ⟨⟨root, b⟩, hbuild, -⟩ := map_ok.mp h
  rw [hdepth] at hbuild
  have hnode {graph name : String}
      (hwalk : buildNode r (depth + 1) { graph } name true {} = .ok (root, b)) :
      ∃ e nodeDef, r.document.element? (Element.joinPath graph name) = some e ∧
        r.document.nodeDefOfNode? e = some nodeDef := by
    cases buildNodeWith_ok hwalk with
    | known hbuilt => cases hbuilt
    | new _ _ _ helement hstep _ _ =>
      cases hstep with
      | defined hdef _ _ => exact ⟨_, _, helement, hdef⟩
      | undefined _ hroot _ _ => exact absurd rfl hroot
  cases buildRoot_ok hbuild with
  | shaderRef helement hcategory hdef _ => exact ⟨_, .shaderRef helement hcategory hdef⟩
  | output helement hcategory hgraph hname hwalk =>
    obtain ⟨e, nodeDef, hfound, hdef⟩ := hnode hwalk
    exact ⟨_, .output helement hcategory hgraph hname hfound hdef⟩
  | node helement href houtput hwalk =>
    obtain ⟨e, nodeDef, hfound, hdef⟩ := hnode hwalk
    exact ⟨_, .node helement href houtput hfound hdef⟩

/-! ## One root -/

/-- Where the builder finds the root, what it plans is what is resolved. -/
theorem plansRoot_iff {nodeDef : Element} (h : r.document.FindsRoot path) :
    (∃ p, PlansRoot r.document path p ∧ p.nodeDef = nodeDef) ↔
      r.document.ResolvesTo path nodeDef := by
  constructor
  · rintro ⟨p, hplan, rfl⟩
    cases hplan with
    | shaderRef helement hcategory hdef => exact .shaderRef helement hcategory hdef
    | output helement hcategory hgraph hname hnode hdef =>
      rw [h.output _ _ _ helement hcategory hgraph hname] at hnode
      exact .output helement hcategory hgraph hname hnode hdef
    | node helement href houtput hnode hdef =>
      obtain rfl := Option.some.inj ((h.node _ helement href houtput).symm.trans hnode)
      exact .node helement href houtput hdef
  · intro hresolves
    cases hresolves with
    | shaderRef helement hcategory hdef => exact ⟨_, .shaderRef helement hcategory hdef, rfl⟩
    | output helement hcategory hgraph hname hnode hdef =>
      rw [← h.output _ _ _ helement hcategory hgraph hname] at hnode
      exact ⟨_, .output helement hcategory hgraph hname hnode hdef, rfl⟩
    | node helement href houtput hdef =>
      exact ⟨_, .node helement href houtput (h.node _ helement href houtput) hdef, rfl⟩

/-- What a node of the graph has from an implementation: code, or the name of a node graph. -/
def codeOrGraph : Implementation → NodeCode ⊕ String
  | .source name file? function? code? => .inl (.source name file? function? code?)
  | .graph name => .inr name

/-- The build of an element begins with the node that is planned for a node definition with
the name. Its implementation is built in or the one that the element is resolved to. -/
structure BeginsWith (r : Request) (path name : String) (p : Plan) : Prop where
  planned : PlansRoot r.document path p
  nodeDef : p.nodeDef.name = name
  implementation : implementationOf r name =
    match r.registry.find? name r.options.target with
    | some reader => .ok (.inl (.geometry reader))
    | none => (r.document.resolveElement path r.options.target).map codeOrGraph
  known : ∀ missing, implementationOf r name ≠ .error (.nodeDefNotFound missing)
  build : build r path =
    (buildPlannedRoot r p (depthBound r.document) {}).map fun (root, b) => b.graph path root

/-- What is resolved is drawn, and what is not resolved is not drawn. -/
structure DrawsResolved (r : Request) (path : String) : Prop where
  resolved : ∀ name, r.document.nodeDefName path = .ok name → ∃ p, BeginsWith r path name p
  unresolved : ∀ e, r.document.nodeDefName path = .error e → ∃ e', build r path = .error e'

/-- If the root is found, the build of an element begins with an instance of the definition that the
element is resolved to, and there is none for an element that is not resolved. -/
theorem drawsResolved (h : r.document.FindsRoot path) : DrawsResolved r path := by
  constructor
  · intro name hname
    obtain ⟨nodeDef, hresolves, rfl⟩ := Document.nodeDefName_eq_ok_iff.mp hname
    obtain ⟨p, hplan, rfl⟩ := (plansRoot_iff h).mpr hresolves
    have himpl : implementationOf r p.nodeDef.name =
        match r.registry.find? p.nodeDef.name r.options.target with
        | some reader => .ok (.inl (.geometry reader))
        | none => (r.document.resolve p.nodeDef.name r.options.target).map codeOrGraph := rfl
    refine ⟨p, hplan, rfl, ?_, ?_, hplan.build_eq⟩
    · rw [himpl, Document.resolveElement, hname]
    · intro missing hmissing
      rw [himpl] at hmissing
      split at hmissing
      · cases hmissing
      · have hknown := Document.resolve_ne_nodeDefNotFound hresolves r.options.target missing
        cases hresolve : r.document.resolve p.nodeDef.name r.options.target with
        | ok impl =>
          rw [hresolve] at hmissing
          cases hmissing
        | error cause =>
          rw [hresolve] at hmissing hknown
          exact hknown (congrArg _ (Except.error.inj hmissing))
  · intro e hname
    cases hbuild : build r path with
    | error e' => exact ⟨e', rfl⟩
    | ok g =>
      obtain ⟨p, hplan⟩ := plansRoot_of_build hbuild
      have hresolves := (plansRoot_iff h).mp ⟨p, hplan, rfl⟩
      have hok := Document.nodeDefName_eq_ok_iff.mpr ⟨p.nodeDef, hresolves, rfl⟩
      cases hname.symm.trans hok

/-- An output that is connected to a node. -/
def Sample.output : Element :=
  { category := "output", name := "out", attributes := [("type", "float"), ("nodename", "n")] }

/-- A node graph with a node and an output that is connected to it. -/
def Sample.toneGraph : Element :=
  { category := "nodegraph", name := "ng", children := [node "tone" "n" "float" [], output] }

/-- A node definition with its implementation, and the given element. -/
def Sample.tones (e : Element) : Request := request [
  definition "tone" "float" [],
  implementation "tone" "0.5",
  e]

theorem drawsResolved_top : (Sample.tones Sample.toneGraph).document.FindsRoot "ng/out" ∧
    DrawsResolved (Sample.tones Sample.toneGraph) "ng/out" := by
  have hfinds :
      (Sample.tones Sample.toneGraph).document.FindsRoot (Element.joinPath "ng" "out") := by
    refine Document.findsRoot_joinPath (by decide) (by decide) ?_
    intro e g target helement _ hgraph htarget
    have hout : (Sample.tones Sample.toneGraph).document.element? (Element.joinPath "ng" "out") =
        some Sample.output := rfl
    have htop : (Sample.tones Sample.toneGraph).document.element? "ng" =
        some Sample.toneGraph := rfl
    obtain rfl := Option.some.inj (hout.symm.trans helement)
    obtain rfl := Option.some.inj (htop.symm.trans hgraph)
    obtain rfl : "n" = target := Option.some.inj htarget
    exact ⟨htop, by decide⟩
  exact ⟨hfinds, drawsResolved hfinds⟩

/-- A node graph in another one. -/
def Sample.nested : Request :=
  tones { category := "nodegraph", name := "outer", children := [toneGraph] }

/-- The output of a node graph in another one is resolved but not drawn: the builder looks for its
node in a node graph at the top. -/
theorem not_drawsResolved_nested :
    Sample.nested.document.nodeDefName "outer/ng/out" = .ok "ND_tone" ∧
      build Sample.nested "outer/ng/out" = .error (.noElement "ng/n") ∧
      ¬ DrawsResolved Sample.nested "outer/ng/out" := by
  have hname : Sample.nested.document.nodeDefName "outer/ng/out" = .ok "ND_tone" := by
    decide +kernel
  refine ⟨hname, by decide +kernel, fun h => ?_⟩
  have hout : Sample.nested.document.element? "outer/ng/out" = some Sample.output := rfl
  have hmissing : Sample.nested.document.element? "ng/n" = none := rfl
  obtain ⟨p, hbegins⟩ := h.resolved "ND_tone" hname
  cases hbegins.planned with
  | shaderRef helement hcategory _ =>
    obtain rfl := Option.some.inj (hout.symm.trans helement)
    exact absurd hcategory (by decide)
  | output helement _ hgraph htarget hnode _ =>
    obtain rfl := Option.some.inj (hout.symm.trans helement)
    have hng : (Sample.nested.document.element?
        (Document.splitPath "outer/ng/out").1).filter (·.category = "nodegraph") =
        some Sample.toneGraph := rfl
    obtain rfl := Option.some.inj (hng.symm.trans hgraph)
    obtain rfl : "n" = _ := Option.some.inj htarget
    cases hmissing.symm.trans hnode
  | node helement _ houtput _ _ =>
    obtain rfl := Option.some.inj (hout.symm.trans helement)
    exact houtput rfl

/-- A slash at the end of a path leads to the node, but away from it once more. -/
example : (Sample.tones Sample.toneGraph).document.nodeDefName "ng/n/" = .ok "ND_tone" ∧
    build (Sample.tones Sample.toneGraph) "ng/n/" = .error (.noElement "ng/n/n") := by
  decide +kernel

end Graph

end MaterialViewer
