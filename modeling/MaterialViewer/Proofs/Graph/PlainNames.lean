import MaterialViewer.Proofs.Document.Path
import MaterialViewer.Proofs.Graph.Sharing

/-!
# Proofs: documents in which sharing is invisible

Keys are put together from names, and different tasks have different keys if the names of a document
cannot be mistaken for what keys are put together with. Then the graph of every element is its plain
unfolding, however its nodes are shared.

A key is read from its end: after the last `>` there is a path, and after the last slash of the path
the name of the node. What stands before the last `>` is the key of a planned node. It is shorter,
so the induction is on the length of the key.
-/

namespace MaterialViewer.Graph

variable {r : Request} {path : String} {b : Build}

/-! ## Keys -/

/-- What is appended to the path of a node for its conversion. -/
def conversionEnding : String := "_" ++ ColorSpace.key

/-- A name that is not mistaken for a part of a key. -/
structure Plain (name : String) : Prop where
  slash : '/' ∉ name.toList
  angle : '>' ∉ name.toList
  colon : ':' ∉ name.toList
  ending : ¬ conversionEnding.toList <:+ name.toList

instance (name : String) : Decidable (Plain name) :=
  decidable_of_iff ('/' ∉ name.toList ∧ '>' ∉ name.toList ∧ ':' ∉ name.toList ∧
      ¬ conversionEnding.toList <:+ name.toList)
    ⟨fun ⟨h₁, h₂, h₃, h₄⟩ => ⟨h₁, h₂, h₃, h₄⟩, fun h => ⟨h.slash, h.angle, h.colon, h.ending⟩⟩

/-- The parts that a key is put together from: the keys of outer nodes, a node graph and a name. -/
structure KeyParts (keyPrefix graph name : String) : Prop where
  outer : keyPrefix = "" ∨ ∃ key, keyPrefix = key ++ ">"
  graph : '>' ∉ graph.toList
  angle : '>' ∉ name.toList
  slash : '/' ∉ name.toList

section KeyParts

variable {p p' g g' n n' : String}

theorem KeyParts.path_angle (h : KeyParts p g n) : '>' ∉ (Element.joinPath g n).toList := by
  unfold Element.joinPath
  split
  · exact h.angle
  · simp only [String.toList_append, List.mem_append, not_or]
    exact ⟨⟨h.graph, by decide⟩, h.angle⟩

/-- A key without `>` is a path. -/
theorem KeyParts.eq_of_angle (h : KeyParts p g n)
    (hkey : '>' ∉ (p ++ Element.joinPath g n).toList) : p = "" := by
  rcases h.outer with hempty | ⟨key, rfl⟩
  · exact hempty
  · refine absurd ?_ hkey
    simp only [String.toList_append, List.mem_append]
    exact .inl (.inr (by decide))

theorem append_angle_inj {k k' s s' : String} (h : k ++ ">" ++ s = k' ++ ">" ++ s')
    (hs : '>' ∉ s.toList) (hs' : '>' ∉ s'.toList) : k = k' ∧ s = s' := by
  have hlist : k.toList ++ '>' :: s.toList = k'.toList ++ '>' :: s'.toList := by
    simpa [String.toList_append] using congrArg String.toList h
  have hsplit : Text.splitAtLast? '>' (k.toList ++ '>' :: s.toList) = some (k.toList, s.toList) :=
    Text.splitAtLast?_append hs
  rw [hlist, Text.splitAtLast?_append hs', Option.some.injEq, Prod.mk.injEq] at hsplit
  exact ⟨String.toList_injective hsplit.1.symm, String.toList_injective hsplit.2.symm⟩

/-- The parts of a key can be read off it. -/
theorem KeyParts.inj (h : KeyParts p g n) (h' : KeyParts p' g' n')
    (hkey : p ++ Element.joinPath g n = p' ++ Element.joinPath g' n') :
    p = p' ∧ g = g' ∧ n = n' := by
  have hparts : p = p' ∧ Element.joinPath g n = Element.joinPath g' n' := by
    rcases h.outer with rfl | ⟨k, rfl⟩
    · have hp' := h'.eq_of_angle (hkey ▸ by simpa using h.path_angle)
      rw [hp', String.empty_append, String.empty_append] at hkey
      exact ⟨hp'.symm, hkey⟩
    · rcases h'.outer with rfl | ⟨k', rfl⟩
      · have hp := h.eq_of_angle (hkey ▸ by simpa using h'.path_angle)
        rw [hp, String.empty_append, String.empty_append] at hkey
        exact ⟨hp, hkey⟩
      · obtain ⟨rfl, hpath⟩ := append_angle_inj hkey h.path_angle h'.path_angle
        exact ⟨rfl, hpath⟩
  have hsplit : Document.splitPath (Element.joinPath g n) = (g, n) :=
    Document.splitPath_joinPath h.slash
  rw [hparts.2, Document.splitPath_joinPath h'.slash, Prod.mk.injEq] at hsplit
  exact ⟨hparts.1, hsplit.1.symm, hsplit.2.symm⟩

/-- The key of a conversion has the parts of the key of its node but for the ending. -/
theorem KeyParts.conversion (h : KeyParts p g n) : KeyParts p g (n ++ conversionEnding) := by
  refine ⟨h.outer, h.graph, ?_, ?_⟩
  · simp only [String.toList_append, List.mem_append, not_or]
    exact ⟨h.angle, by decide⟩
  · simp only [String.toList_append, List.mem_append, not_or]
    exact ⟨h.slash, by decide⟩

theorem joinPath_append (graph name ending : String) :
    Element.joinPath graph name ++ ending = Element.joinPath graph (name ++ ending) := by
  unfold Element.joinPath
  split
  · rfl
  · rw [String.append_assoc]

/-- A key without `>` that is a path has the parts of the path. -/
theorem KeyParts.splitPath_eq {path : String} (h : KeyParts p g n) (hpath : '>' ∉ path.toList)
    (hkey : p ++ Element.joinPath g n = path) : p = "" ∧ Document.splitPath path = (g, n) := by
  subst hkey
  have hp := h.eq_of_angle hpath
  rw [hp, String.empty_append, Document.splitPath_joinPath h.slash]
  exact ⟨rfl, rfl⟩

end KeyParts

/-! ## Names of a document -/

/-- The names in the document and in the path that is drawn are not mistaken for parts of keys. -/
structure PlainNames (d : Document) (path : String) : Prop where
  node : ∀ e ∈ d.root.preorder, ∀ name ∈ e.filled? "nodename", Plain name
  graph : ∀ g ∈ d.root.preorder, g.category = "nodegraph" → '>' ∉ g.name.toList
  reference : ∀ e ∈ d.root.preorder, ∀ graph ∈ e.filled? "nodegraph",
    '>' ∉ graph.toList ∧ ∀ g ∈ d.nodeGraphs, g.hasAttribute "nodedef" → g.name ≠ graph
  angle : '>' ∉ path.toList
  last : Plain (Document.splitPath path).2
  element : ∀ e ∈ d.element? path, Plain e.name
  shaderRef : ∀ e ∈ d.element? path, e.category = "shaderref" →
    ∀ e' ∈ d.root.preorder, e'.filled? "nodename" ≠ some (Document.splitPath path).2

/-- A node is referred to by a name. -/
def Named (d : Document) (name : String) : Prop :=
  ∃ e ∈ d.root.preorder, e.filled? "nodename" = some name

theorem PlainNames.plain {d : Document} {name : String} (hnames : PlainNames d path)
    (h : Named d name) : Plain name := by
  obtain ⟨e, he, hname⟩ := h
  exact hnames.node e he name hname

/-- A node graph is referred to by a name. -/
def Referenced (d : Document) (graph : String) : Prop :=
  ∃ e ∈ d.root.preorder, e.filled? "nodegraph" = some graph

theorem named_of_outputNode? {d : Document} {graph output name : String}
    (h : outputNode? d graph output = some name) : Named d name := by
  obtain ⟨g, hg, h⟩ := Option.bind_eq_some_iff.mp h
  obtain ⟨o, ho, hname⟩ := Option.bind_eq_some_iff.mp h
  have hchild := (List.mem_filter.mp (List.mem_of_find?_eq_some ho)).1
  exact ⟨o, Element.mem_preorder_of_mem_children (Document.mem_of_element? hg) hchild, hname⟩

theorem graph_of_resolve {d : Document} {nodeDef graph : String} {target : Target}
    (h : d.resolve nodeDef target = .ok (.graph graph)) :
    ∃ g ∈ d.nodeGraphs, g.hasAttribute "nodedef" ∧ g.name = graph := by
  unfold Document.resolve at h
  split at h
  · cases h
  · split at h
    · cases h
    · split at h
      · rename_i g hg
        refine ⟨g, List.mem_of_find?_eq_some hg, ?_, Implementation.graph.inj (Except.ok.inj h)⟩
        have hdef := List.find?_some hg
        rw [Document.implementsDef, decide_eq_true_eq] at hdef
        rw [Element.hasAttribute, hdef]
        rfl
      · cases h

theorem graph_of_implementationOf {nodeDef graph : String}
    (h : implementationOf r nodeDef = .ok (.inr graph)) :
    ∃ g ∈ r.document.nodeGraphs, g.hasAttribute "nodedef" ∧ g.name = graph := by
  unfold implementationOf at h
  split at h
  · cases h
  · obtain ⟨impl, himpl, heq⟩ := map_ok.mp h
    cases impl with
    | source name file? function? code? => cases heq
    | graph name =>
      obtain rfl := Sum.inr.inj heq
      exact graph_of_resolve himpl

/-- What stands in the place of a node is a node graph that implements a definition. -/
theorem expansion?_spec {nodeDef graph name : String}
    (h : expansion? r nodeDef = some (graph, name)) :
    (∃ g ∈ r.document.nodeGraphs, g.hasAttribute "nodedef" ∧ g.name = graph) ∧
      Named r.document name := by
  obtain ⟨himpl, hname⟩ := expansion?_eq_some h
  exact ⟨graph_of_implementationOf himpl, named_of_outputNode? hname⟩

theorem PlainNames.expansion {nodeDef graph name : String} (hnames : PlainNames r.document path)
    (h : expansion? r nodeDef = some (graph, name)) : '>' ∉ graph.toList ∧ Plain name := by
  obtain ⟨⟨g, hg, -, rfl⟩, hname⟩ := expansion?_spec h
  have hcategory := of_decide_eq_true (List.mem_filter.mp hg).2
  exact ⟨hnames.graph g (Document.mem_of_mem_nodeGraphs hg) hcategory, hnames.plain hname⟩

section Authored

variable {α : Type} {d : Document} {e : Element} {inst : Instance α}

/-- What is authored for an instance is in the document. -/
def Authored (d : Document) (inst : Instance α) : Prop :=
  ∀ name e, inst.input? name = some e → e ∈ d.root.preorder

theorem authored_node (he : e ∈ d.root.preorder) : Authored d (.node e : Instance α) := by
  intro name input hinput
  have hchild := (List.mem_filter.mp (List.mem_of_find?_eq_some hinput)).1
  exact Element.mem_preorder_of_mem_children he hchild

theorem authored_shaderRef (he : e ∈ d.root.preorder) : Authored d (.shaderRef e : Instance α) :=
  fun _ _ hinput => Element.mem_preorder_of_mem_children he (List.mem_of_find?_eq_some hinput)

theorem Authored.named_of_node {graph name : String} {defInput : Element} (h : Authored d inst)
    (hlink : inst.link d graph defInput = .node name) : Named d name := by
  obtain ⟨authored, hauthored, heq⟩ := exists_linkOf (by rw [hlink]; exact nofun)
  exact ⟨authored, h _ _ hauthored, (linkOf_node (heq.symm.trans hlink)).1⟩

theorem Authored.named_of_output {graph graph' name : String} {defInput : Element}
    (h : Authored d inst) (hlink : inst.link d graph defInput = .output graph' name) :
    Named d name ∧ Referenced d graph' := by
  obtain ⟨authored, hauthored, heq⟩ := exists_linkOf (by rw [hlink]; exact nofun)
  obtain ⟨hgraph, _, houtput⟩ := linkOf_output (heq.symm.trans hlink)
  exact ⟨named_of_outputNode? houtput, authored, h _ _ hauthored, hgraph⟩

end Authored

/-- An input leads to a place in its own scope, or in a node graph that is referred to. -/
theorem reference_spec {d : Document} {p : TreePlan} {defInput : Element} {target : Place}
    (hinst : Authored d p.inst) (h : p.reference d defInput = .place target) :
    Named d target.name ∧ (target.scope = p.scope ∨ ∃ graph, Referenced d graph ∧
      target.scope = { p.scope with graph, interface? := none }) := by
  unfold TreePlan.reference at h
  cases hlink : p.inst.link d p.scope.graph defInput with
  | node name =>
    rw [hlink] at h
    obtain rfl := TreeReference.place.inj h
    exact ⟨hinst.named_of_node hlink, .inl rfl⟩
  | output graph name =>
    rw [hlink] at h
    obtain rfl := TreeReference.place.inj h
    obtain ⟨hname, hgraph⟩ := hinst.named_of_output hlink
    exact ⟨hname, .inr ⟨graph, hgraph, rfl⟩⟩
  | interface name =>
    rw [hlink] at h
    simp only [TreeScope.follow] at h
    split at h <;> cases h
  | nothing =>
    rw [hlink] at h
    cases h

/-! ## How tasks come about -/

/-- A scope is at the top, in the node graph in the place of a planned node, or in a node graph that
is referred to from there. -/
inductive ScopeOrigin (r : Request) (path : String) : TreeScope → Prop
  | top {graph : String} (hgraph : '>' ∉ graph.toList) : ScopeOrigin r path { graph }
  | inner {p : TreePlan} {depth : Nat} {inputs : List (TreeInput NodeTree)} {graph name : String}
      (hplan : Planned r path p) (hinputs : p.inputTrees? r (placeTree? r depth) = some inputs)
      (hexpansion : expansion? r p.nodeDef.name = some (graph, name)) :
      ScopeOrigin r path (p.inner inputs graph name).scope
  | referenced {p : TreePlan} {graph : String} (hplan : Planned r path p)
      (hgraph : Referenced r.document graph) :
      ScopeOrigin r path { graph, keyPrefix := p.key ++ ">" }

/-- The scope of a place has an origin, and its name is in the document or that of what is drawn. -/
structure PlaceOrigin (r : Request) (path : String) (p : Place) : Prop where
  scope : ScopeOrigin r path p.scope
  named : start? r.document path = some (.place p) ∨ Named r.document p.name
  plain : Plain p.name

/-- The scope of a plan has an origin, and the node is authored in the document. -/
structure PlanOrigin (r : Request) (path : String) (p : TreePlan) : Prop where
  scope : ScopeOrigin r path p.scope
  authored : Authored r.document p.inst

/-- The origin of a task. -/
def Task.Origin (r : Request) (path : String) : Task → Prop
  | .place p => PlaceOrigin r path p
  | .property name => (geometricProperty? name).isSome

theorem ScopeOrigin.refer {s : TreeScope} {graph : String} (hnames : PlainNames r.document path)
    (h : ScopeOrigin r path s) (hgraph : Referenced r.document graph) :
    ScopeOrigin r path { s with graph, interface? := none } := by
  cases h with
  | top _ =>
    obtain ⟨e, he, hfilled⟩ := hgraph
    exact .top (hnames.reference e he graph hfilled).1
  | inner hplan _ _ => exact .referenced hplan hgraph
  | referenced hplan _ => exact .referenced hplan hgraph

theorem PlaceOrigin.of_named {p : Place} (hnames : PlainNames r.document path)
    (hscope : ScopeOrigin r path p.scope) (hnamed : Named r.document p.name) :
    PlaceOrigin r path p :=
  ⟨hscope, .inr hnamed, hnames.plain hnamed⟩

/-- What the element to be drawn stands for. -/
theorem start?_spec {d : Document} {start : Start} (h : start? d path = some start) :
    ∃ e ∈ d.element? path,
      (e.category = "shaderref" ∧ ∃ nodeDef, start = .plan (.ofShaderRef e nodeDef path)) ∨
      (∃ g ∈ d.root.preorder, g.category = "nodegraph" ∧
        ∃ name ∈ e.filled? "nodename", start = .place ⟨{ graph := g.name }, name⟩) ∨
      start = .place ⟨{ graph := (Document.splitPath path).1 }, e.name⟩ := by
  obtain ⟨e, he, h⟩ := Option.bind_eq_some_iff.mp h
  refine ⟨e, he, ?_⟩
  split at h
  · rename_i hcategory
    obtain ⟨nodeDef, -, rfl⟩ := Option.map_eq_some_iff.mp h
    exact .inl ⟨hcategory, nodeDef, rfl⟩
  · split at h
    · obtain ⟨g, hg, h⟩ := Option.bind_eq_some_iff.mp h
      obtain ⟨name, hname, rfl⟩ := Option.map_eq_some_iff.mp h
      obtain ⟨hg, hcategory⟩ := Option.filter_eq_some_iff.mp hg
      have hgraph := of_decide_eq_true hcategory
      exact .inr (.inl ⟨g, Document.mem_of_element? hg, hgraph, name, hname, rfl⟩)
    · exact .inr (.inr (Option.some.inj h).symm)

theorem start_place_origin (hnames : PlainNames r.document path) {p : Place}
    (h : start? r.document path = some (.place p)) : PlaceOrigin r path p := by
  obtain ⟨e, he, ⟨-, nodeDef, heq⟩ | ⟨g, hg, hgraph, name, hname, heq⟩ | heq⟩ := start?_spec h
  · cases heq
  · obtain rfl := Start.place.inj heq
    exact ⟨.top (hnames.graph g hg hgraph), .inl h,
      hnames.node e (Document.mem_of_element? he) name hname⟩
  · obtain rfl := Start.place.inj heq
    have hparent : '>' ∉ (Document.splitPath path).1.toList :=
      fun hmem => hnames.angle (Document.mem_of_mem_splitPath hmem)
    exact ⟨.top hparent, .inl h, hnames.element e he⟩

theorem start_plan_spec {plan : TreePlan} (h : start? r.document path = some (.plan plan)) :
    ∃ e ∈ r.document.element? path,
      e.category = "shaderref" ∧ ∃ nodeDef, plan = .ofShaderRef e nodeDef path := by
  obtain ⟨e, he, ⟨href, nodeDef, heq⟩ | ⟨g, -, -, name, -, heq⟩ | heq⟩ := start?_spec h
  · exact ⟨e, he, href, nodeDef, Start.plan.inj heq⟩
  · cases heq
  · cases heq

mutual

theorem Planned.origin (hnames : PlainNames r.document path) {p : TreePlan} :
    Planned r path p → PlanOrigin r path p
  | .start hstart => by
    obtain ⟨e, he, -, nodeDef, rfl⟩ := start_plan_spec hstart
    exact ⟨.top (by decide), authored_shaderRef (Document.mem_of_element? he)⟩
  | .node hplace helement _ =>
    ⟨(hplace.origin hnames).scope, authored_node (Document.mem_of_element? helement)⟩
  | .conversion hplace _ _ _ hplan => by
    obtain ⟨conversion, -, rfl⟩ := Option.map_eq_some_iff.mp hplan
    exact ⟨(hplace.origin hnames).scope, fun _ _ hinput => nomatch hinput⟩

theorem Asked.origin (hnames : PlainNames r.document path) {task : Task} :
    Asked r path task → task.Origin r path
  | .start hstart => start_place_origin hnames hstart
  | .input hplan _ _ href => by
    have ho := hplan.origin hnames
    obtain ⟨hnamed, hscope | ⟨graph, hgraph, hscope⟩⟩ := reference_spec ho.authored href
    · exact .of_named hnames (hscope ▸ ho.scope) hnamed
    · exact .of_named hnames (hscope ▸ ho.scope.refer hnames hgraph) hnamed
  | .property _ _ _ _ _ hknown => hknown
  | .inner hplan hinputs hexpansion =>
    .of_named hnames (.inner hplan hinputs hexpansion) (expansion?_spec hexpansion).2

end

/-! ## One task for each key -/

theorem ScopeOrigin.keyParts {s : TreeScope} {name : String} (hnames : PlainNames r.document path)
    (h : ScopeOrigin r path s) (hname : Plain name) : KeyParts s.keyPrefix s.graph name := by
  cases h with
  | top hgraph => exact ⟨.inl rfl, hgraph, hname.angle, hname.slash⟩
  | inner _ _ hexpansion =>
    exact ⟨.inr ⟨_, rfl⟩, (hnames.expansion hexpansion).1, hname.angle, hname.slash⟩
  | referenced _ hgraph =>
    obtain ⟨e, he, hfilled⟩ := hgraph
    exact ⟨.inr ⟨_, rfl⟩, (hnames.reference e he _ hfilled).1, hname.angle, hname.slash⟩

theorem PlaceOrigin.keyParts {p : Place} (hnames : PlainNames r.document path)
    (h : PlaceOrigin r path p) : KeyParts p.scope.keyPrefix p.scope.graph p.name :=
  h.scope.keyParts hnames h.plain

/-- A node graph that stands in the place of a node is not referred to otherwise. -/
theorem not_referenced {nodeDef graph name : String} (hnames : PlainNames r.document path)
    (hexpansion : expansion? r nodeDef = some (graph, name)) : ¬ Referenced r.document graph := by
  rintro ⟨e, he, hfilled⟩
  obtain ⟨⟨g, hg, hdef, rfl⟩, -⟩ := expansion?_spec hexpansion
  exact (hnames.reference e he _ hfilled).2 g hg hdef rfl

theorem angle_ne_empty (key : String) : key ++ ">" ≠ "" := by
  rw [ne_eq, String.append_eq_empty_iff, not_and]
  exact fun _ => by decide

/-- The inputs that stand for the interface of a scope are known by what its keys begin with and its
graph, if what they begin with is the key of one plan. -/
theorem ScopeOrigin.interface_eq {s s' : TreeScope} (hnames : PlainNames r.document path)
    (h : ScopeOrigin r path s) (h' : ScopeOrigin r path s')
    (hplans : ∀ p p', Planned r path p → Planned r path p' → s.keyPrefix = p.key ++ ">" →
      s'.keyPrefix = p'.key ++ ">" → p = p')
    (houter : s.keyPrefix = s'.keyPrefix) (hgraph : s.graph = s'.graph) :
    s.interface? = s'.interface? := by
  cases h with
  | top _ =>
    cases h' with
    | top _ => rfl
    | inner _ _ _ => exact absurd houter.symm (angle_ne_empty _)
    | referenced _ _ => rfl
  | inner hplan hinputs hexpansion =>
    cases h' with
    | top _ => exact absurd houter (angle_ne_empty _)
    | inner hplan' hinputs' hexpansion' =>
      -- one plan has one list of inputs, at whatever depths they were found
      obtain rfl := hplans _ _ hplan hplan' rfl rfl
      exact congrArg some (inputTrees?_unique hinputs hinputs')
    | referenced _ hreferenced =>
      cases hgraph
      exact absurd hreferenced (not_referenced hnames hexpansion)
  | referenced _ hreferenced =>
    cases h' with
    | top _ => rfl
    | inner _ _ hexpansion =>
      cases hgraph
      exact absurd hreferenced (not_referenced hnames hexpansion)
    | referenced _ _ => rfl

/-- The places with a key are one if the plans with a shorter key are. -/
theorem place_eq_of_key_eq {p q : Place} (hnames : PlainNames r.document path)
    (hp : Asked r path (.place p)) (hq : Asked r path (.place q)) (hkey : p.key = q.key)
    (hplans : ∀ plan plan', Planned r path plan → Planned r path plan' → plan.key = plan'.key →
      plan.key.length < p.key.length → plan = plan') : p = q := by
  have ho : PlaceOrigin r path p := hp.origin hnames
  have ho' : PlaceOrigin r path q := hq.origin hnames
  obtain ⟨houter, hgraph, hname⟩ := (ho.keyParts hnames).inj (ho'.keyParts hnames) hkey
  have hinterface : p.scope.interface? = q.scope.interface? := by
    refine ho.scope.interface_eq hnames ho'.scope ?_ houter hgraph
    intro plan plan' hplan hplan' h h'
    have hplanKey : plan.key ++ ">" = plan'.key ++ ">" := h.symm.trans (houter.trans h')
    have hlength : p.key.length = plan.key.length + 1 + p.path.length := by
      rw [Place.key, h, String.length_append, String.length_append]
      rfl
    exact hplans plan plan' hplan hplan' ((String.append_left_inj ">").mp hplanKey) (by omega)
  obtain ⟨⟨graph, keyPrefix, interface?⟩, name⟩ := p
  obtain ⟨⟨graph', keyPrefix', interface?'⟩, name'⟩ := q
  simp only at houter hgraph hname hinterface
  subst houter hgraph hname hinterface
  rfl

/-! ### Plans -/

theorem conversionPath_eq (path : String) : conversionPath path = path ++ conversionEnding := by
  rw [conversionPath, conversionEnding, String.append_assoc]

theorem conversion_key (place : Place) (tree : NodeTree) (nodeDef : Element) :
    (TreePlan.ofConversion place tree nodeDef).key = place.key ++ conversionEnding := by
  show place.scope.keyPrefix ++ conversionPath place.path = _
  rw [conversionPath_eq, ← String.append_assoc, Place.key]

theorem place_key_append (place : Place) (ending : String) :
    place.key ++ ending =
      place.scope.keyPrefix ++ Element.joinPath place.scope.graph (place.name ++ ending) := by
  rw [Place.key, Place.path, String.append_assoc, joinPath_append]

/-- No node has the key of a conversion. -/
theorem place_key_ne_conversion {p q : Place} (hnames : PlainNames r.document path)
    (hp : PlaceOrigin r path p) (hq : PlaceOrigin r path q) :
    p.key ≠ q.key ++ conversionEnding := by
  intro hkey
  rw [place_key_append] at hkey
  obtain ⟨-, -, hname⟩ := (hp.keyParts hnames).inj (hq.keyParts hnames).conversion hkey
  refine hp.plain.ending ?_
  rw [hname, String.toList_append]
  exact List.suffix_append _ _

/-- No node has the path of the shader reference that is drawn as its key. -/
theorem place_key_ne_start {plan : TreePlan} {q : Place} (hnames : PlainNames r.document path)
    (hstart : start? r.document path = some (.plan plan)) (hq : PlaceOrigin r path q) :
    q.key ≠ plan.key := by
  obtain ⟨e, he, hcategory, nodeDef, rfl⟩ := start_plan_spec hstart
  intro hkey
  obtain ⟨-, hsplit⟩ := (hq.keyParts hnames).splitPath_eq hnames.angle hkey
  rcases hq.named with hplace | ⟨e', he', hname⟩
  · rw [hstart] at hplace
    cases hplace
  · refine hnames.shaderRef e he hcategory e' he' ?_
    rw [hsplit, hname]

/-- No conversion has the path of the shader reference that is drawn as its key. -/
theorem conversion_key_ne_start {plan : TreePlan} {q : Place} (hnames : PlainNames r.document path)
    (hstart : start? r.document path = some (.plan plan)) (hq : PlaceOrigin r path q) :
    q.key ++ conversionEnding ≠ plan.key := by
  obtain ⟨e, -, -, nodeDef, rfl⟩ := start_plan_spec hstart
  intro hkey
  rw [place_key_append] at hkey
  obtain ⟨-, hsplit⟩ := (hq.keyParts hnames).conversion.splitPath_eq hnames.angle hkey
  refine hnames.last.ending ?_
  rw [hsplit, String.toList_append]
  exact List.suffix_append _ _

/-- The plans with a key are one if the places with a key that is not longer are. -/
theorem plan_eq_of_key_eq {plan plan' : TreePlan} (hnames : PlainNames r.document path)
    (h : Planned r path plan) (h' : Planned r path plan') (hkey : plan.key = plan'.key)
    (hplaces : ∀ p q, Asked r path (.place p) → Asked r path (.place q) → p.key = q.key →
      p.key.length ≤ plan.key.length → p = q) : plan = plan' := by
  cases h with
  | start hstart =>
    cases h' with
    | start hstart' => exact Start.plan.inj (Option.some.inj (hstart.symm.trans hstart'))
    | node hq _ _ => exact absurd hkey.symm (place_key_ne_start hnames hstart (hq.origin hnames))
    | conversion hq _ _ _ hplan =>
      obtain ⟨_, -, rfl⟩ := Option.map_eq_some_iff.mp hplan
      rw [conversion_key] at hkey
      exact absurd hkey.symm (conversion_key_ne_start hnames hstart (hq.origin hnames))
  | node hp helement hdef =>
    cases h' with
    | start hstart => exact absurd hkey (place_key_ne_start hnames hstart (hp.origin hnames))
    | node hq helement' hdef' =>
      obtain rfl := hplaces _ _ hp hq hkey (Nat.le_refl _)
      obtain rfl := Option.some.inj (helement.symm.trans helement')
      obtain rfl := Option.some.inj (hdef.symm.trans hdef')
      rfl
    | conversion hq _ _ _ hplan =>
      obtain ⟨_, -, rfl⟩ := Option.map_eq_some_iff.mp hplan
      rw [conversion_key] at hkey
      exact absurd hkey (place_key_ne_conversion hnames (hp.origin hnames) (hq.origin hnames))
  | @conversion p e nodeDef n tree _ hp helement hdef htree hplan =>
    obtain ⟨_, hconversion, rfl⟩ := Option.map_eq_some_iff.mp hplan
    rw [conversion_key] at hkey hplaces
    cases h' with
    | start hstart =>
      exact absurd hkey (conversion_key_ne_start hnames hstart (hp.origin hnames))
    | node hq _ _ =>
      exact absurd hkey.symm (place_key_ne_conversion hnames (hq.origin hnames) (hp.origin hnames))
    | @conversion q e' nodeDef' m tree' _ hq helement' hdef' htree' hplan' =>
      obtain ⟨_, hconversion', rfl⟩ := Option.map_eq_some_iff.mp hplan'
      rw [conversion_key] at hkey
      have hplace := (String.append_left_inj _).mp hkey
      obtain rfl := hplaces p q hp hq hplace (by rw [String.length_append]; omega)
      obtain rfl := Option.some.inj (helement.symm.trans helement')
      obtain rfl := Option.some.inj (hdef.symm.trans hdef')
      obtain rfl := planTree?_unique htree htree'
      obtain rfl := Option.some.inj (hconversion.symm.trans hconversion')
      rfl

/-- Different places have different keys. -/
theorem place_eq (hnames : PlainNames r.document path) {p q : Place}
    (hp : Asked r path (.place p)) (hq : Asked r path (.place q)) (hkey : p.key = q.key) :
    p = q := by
  induction hlength : p.key.length using Nat.strongRecOn generalizing p q with
  | ind n ih =>
    -- the outer plans have shorter keys, and the places they are made for no longer ones
    refine place_eq_of_key_eq hnames hp hq hkey fun plan plan' h h' hplanKey hlt => ?_
    refine plan_eq_of_key_eq hnames h h' hplanKey fun p' q' hp' hq' hkey' hle => ?_
    exact ih p'.key.length (by omega) hp' hq' hkey' rfl

/-! ### Tasks -/

/-- The key of a geometric property is a name with a colon. -/
theorem geometricKey_spec {name : String} (h : (geometricProperty? name).isSome) :
    '>' ∉ (geometricKey name).toList ∧
      ':' ∈ (Document.splitPath (geometricKey name)).2.toList := by
  have hknown : name ∈ ["UV0", "UV1", "Pobject", "Pworld", "Nobject", "Nworld", "Tobject",
      "Tworld"] := by
    by_contra hnone
    simp only [List.mem_cons, List.not_mem_nil, or_false, not_or] at hnone
    simp [geometricProperty?, hnone] at h
  simp only [List.mem_cons, List.not_mem_nil, or_false] at hknown
  rcases hknown with rfl | rfl | rfl | rfl | rfl | rfl | rfl | rfl <;> decide +kernel

/-- No node has the key of a geometric property. -/
theorem place_key_ne_geometricKey {p : Place} {name : String} (hnames : PlainNames r.document path)
    (hp : PlaceOrigin r path p) (hknown : (geometricProperty? name).isSome) :
    p.key ≠ geometricKey name := by
  obtain ⟨hangle, hcolon⟩ := geometricKey_spec hknown
  intro hkey
  obtain ⟨-, hsplit⟩ := (hp.keyParts hnames).splitPath_eq hangle hkey
  rw [hsplit] at hcolon
  exact hp.plain.colon hcolon

/-- Different tasks have different keys. -/
theorem task_eq (hnames : PlainNames r.document path) {task task' : Task}
    (h : Asked r path task) (h' : Asked r path task') (hkey : task.key = task'.key) :
    task = task' := by
  have ho := h.origin hnames
  have ho' := h'.origin hnames
  cases task with
  | place p =>
    cases task' with
    | place q => rw [place_eq hnames h h' hkey]
    | property name => exact absurd hkey (place_key_ne_geometricKey hnames ho ho')
  | property name =>
    cases task' with
    | place q => exact absurd hkey.symm (place_key_ne_geometricKey hnames ho' ho)
    | property name' => rw [(String.append_right_inj _).mp hkey]

theorem keysAgree_of_plainNames (hnames : PlainNames r.document path) : KeysAgree r path b := by
  intro task task' h h' hkey _ tree hunfolds
  exact task_eq hnames h h' hkey ▸ hunfolds

/-- With plain names every graph is the plain unfolding of its element. -/
theorem unfolds_of_plainNames {depth : Nat} {g : ShaderGraph} (hnames : PlainNames r.document path)
    (h : graphWithin r depth path = .ok g) :
    ∃ tree depth, ∀ depth' ≥ depth, elementTree? r depth' path = some tree ∧
      treeAt? g.nodes depth' g.root = some tree := by
  obtain ⟨⟨root, b⟩, hbuild, rfl⟩ := map_ok.mp h
  exact ((keysAgree_of_plainNames hnames).transparent hbuild).root

example : PlainNames (Sample.conversion "tone").document "top" := by
  refine ⟨?_, ?_, ?_, ?_, ?_, ?_, ?_⟩ <;> decide +kernel

end MaterialViewer.Graph
