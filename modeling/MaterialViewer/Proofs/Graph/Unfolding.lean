import MaterialViewer.Proofs.Graph.Steps
import MaterialViewer.Proofs.Lists

/-!
# Proofs: graphs and documents as trees

Unfolded along its connections, a graph is a tree: each consumer of a node has the node to itself.
The same kind of tree can be read off the document with the rules of the builder, but without a
table of the nodes built so far: whatever is referred to is worked out again for each reference.
The names that the builder makes up for nodes and uniforms are no part of these trees.

Both readings go down to a depth, and a tree that is found is found at every greater depth.
-/

namespace MaterialViewer.Graph

/-! ## Trees -/

/-- Where an input of a tree takes its value from. -/
inductive Origin (α : Type)
  | tree (source : α)
  | uniform
  | constant (value : Value)
  | unbound

/-- An input of a tree. -/
structure TreeInput (α : Type) where
  name : String
  type : ValueType
  origin : Origin α
  value? : Option Value

/-- A node with all that it takes values from, without its name. -/
structure NodeTree where
  path : String
  category : String
  nodeDef : String
  type : ValueType
  inputs : List (TreeInput NodeTree)
  code? : Option NodeCode

/-! ## The tree of a node of a graph -/

/-- The origin for a binding, given the trees of the nodes. -/
def bindingOrigin? {α : Type} (trees : Nat → Option α) : InputBinding → Option (Origin α)
  | .connection index => (trees index).map .tree
  | .uniform _ => some .uniform
  | .constant value => some (.constant value)
  | .unbound => some .unbound

/-- The tree of an input, given the trees of the nodes. -/
def inputTree? (trees : Nat → Option NodeTree) (input : ShaderInput) :
    Option (TreeInput NodeTree) :=
  (bindingOrigin? trees input.binding).map fun origin =>
    ⟨input.name, input.type, origin, input.value?⟩

/-- The tree of a node, given the trees of the nodes that it is connected to. -/
def nodeTree? (trees : Nat → Option NodeTree) (node : ShaderNode) : Option NodeTree :=
  (node.inputs.mapM (inputTree? trees)).map fun inputs =>
    { path := node.path, category := node.category, nodeDef := node.nodeDef, type := node.type
      inputs, code? := node.code? }

/-- The tree of the node at an index, down to a depth. -/
def treeAt? (nodes : List ShaderNode) : Nat → Nat → Option NodeTree
  | 0 => fun _ => none
  | depth + 1 => fun index => nodes[index]?.bind (nodeTree? (treeAt? nodes depth))

/-- The tree of the node at an index is the given one. -/
def HasTree (nodes : List ShaderNode) (index : Nat) (tree : NodeTree) : Prop :=
  ∃ depth, treeAt? nodes depth index = some tree

/-! ## The tree of a place in a document -/

/-- Where names are looked up: a `Scope` in which trees stand for the interface, and that makes up
no names. -/
structure TreeScope where
  graph : String := ""
  keyPrefix : String := ""
  interface? : Option (List (TreeInput NodeTree)) := none

/-- A name in a scope. -/
structure Place where
  scope : TreeScope
  name : String

/-- The path of the node at a place. -/
def Place.path (p : Place) : String := Element.joinPath p.scope.graph p.name

/-- The key of the node at a place. -/
def Place.key (p : Place) : String := p.scope.keyPrefix ++ p.path

/-- What an input refers to: the node at a place, an input of the node in whose place the scope
stands, or nothing that there is. -/
inductive TreeReference
  | place (p : Place)
  | outer (input : TreeInput NodeTree)
  | nothing

/-- What a link refers to in a scope. -/
def TreeScope.follow (s : TreeScope) : Link → TreeReference
  | .node name => .place ⟨s, name⟩
  | .output graph name => .place ⟨{ s with graph, interface? := none }, name⟩
  | .interface name =>
    match s.interface?.bind (·.find? (·.name = name)) with
    | some input => .outer input
    | none => .nothing
  | .nothing => .nothing

/-- A node to be unfolded from a node definition: a `Plan` for the plain unfolding. -/
structure TreePlan where
  scope : TreeScope
  inst : Instance NodeTree
  nodeDef : Element
  type : ValueType
  key : String
  path : String

namespace TreePlan

/-- The plan of the authored node at a place. -/
def ofNode (p : Place) (e nodeDef : Element) : TreePlan :=
  { scope := p.scope, inst := .node e, nodeDef
    type := .ofName (if e.typeName = "" then nodeDef.typeName else e.typeName)
    key := p.key, path := p.path }

/-- The plan of the node for a shader reference. -/
def ofShaderRef (e nodeDef : Element) (path : String) : TreePlan :=
  { scope := {}, inst := .shaderRef e, nodeDef, type := .ofName nodeDef.typeName, key := path
    path }

/-- The plan of the conversion that follows the node at a place. -/
def ofConversion (p : Place) (tree : NodeTree) (nodeDef : Element) : TreePlan :=
  { scope := p.scope, inst := .added [("in", tree)], nodeDef, type := tree.type
    key := p.scope.keyPrefix ++ conversionPath p.path, path := conversionPath p.path }

/-- What an input of the definition refers to. -/
def reference (d : Document) (p : TreePlan) (defInput : Element) : TreeReference :=
  p.scope.follow (p.inst.link d p.scope.graph defInput)

/-- The place behind the output of a node graph that stands in the place of the node. -/
def inner (p : TreePlan) (inputs : List (TreeInput NodeTree)) (graph name : String) : Place :=
  ⟨{ graph, keyPrefix := p.key ++ ">", interface? := some inputs }, name⟩

/-- The node itself, if no node graph stands in its place. -/
def node (r : Request) (p : TreePlan) (inputs : List (TreeInput NodeTree)) : NodeTree :=
  { path := p.path, category := p.inst.category p.nodeDef, nodeDef := p.nodeDef.name, type := p.type
    inputs, code? := code? r p.nodeDef.name }

end TreePlan

/-- The input that takes its value from a tree. -/
def treeInput (defInput : Element) (tree : NodeTree) : TreeInput NodeTree :=
  ⟨defInput.name, .ofName defInput.typeName, .tree tree, none⟩

/-- The tree of the node that reads a geometric property. -/
def geometryTree? (r : Request) (property : String) : Option NodeTree :=
  (geometricSource? r property).bind (nodeTree? fun _ => none)

/-- The origin of an input that refers to nothing and reads no geometric property. -/
def Instance.ownOrigin (r : Request) (inst : Instance NodeTree) (defInput : Element) :
    Origin NodeTree :=
  ((fixedBinding? r (.ofName defInput.typeName) (inst.valueOrDefault? defInput)
    (inst.valueOf? defInput).isSome).bind (bindingOrigin? fun _ => none)).getD .uniform

/-- The tree of an input that refers to nothing. -/
def Instance.ownTree (r : Request) (inst : Instance NodeTree) (defInput : Element) :
    TreeInput NodeTree :=
  match (inst.property? defInput).bind (geometryTree? r) with
  | some tree => treeInput defInput tree
  | none =>
    ⟨defInput.name, .ofName defInput.typeName, inst.ownOrigin r defInput,
      inst.valueOrDefault? defInput⟩

section Unfolding

variable (r : Request) (trees : Place → Option NodeTree)

/-- The tree of an input of a planned node, given the trees of places. -/
def TreePlan.inputTree? (p : TreePlan) (defInput : Element) : Option (TreeInput NodeTree) :=
  match p.inst.connection? defInput.name with
  | some tree => some (treeInput defInput tree)
  | none =>
    match p.reference r.document defInput with
    | .place target => (trees target).map (treeInput defInput)
    | .outer input =>
      some { input with name := defInput.name, type := .ofName defInput.typeName }
    | .nothing => some (p.inst.ownTree r defInput)

/-- The trees of the inputs of a planned node. -/
def TreePlan.inputTrees? (p : TreePlan) : Option (List (TreeInput NodeTree)) :=
  p.nodeDef.valueElements.mapM (p.inputTree? r trees)

/-- The tree of a planned node. -/
def TreePlan.tree? (p : TreePlan) : Option NodeTree :=
  (p.inputTrees? r trees).bind fun inputs =>
    match expansion? r p.nodeDef.name with
    | some (graph, name) => trees (p.inner inputs graph name)
    | none => some (p.node r inputs)

/-- The plan of the conversion that has to follow the node at a place, if any. -/
def conversionPlan? (p : Place) (e : Element) (tree : NodeTree) : Option TreePlan :=
  (conversionOf? r e (tree.inputs.map (·.type)) tree.type).map (.ofConversion p tree)

/-- The tree of the node at a place with the conversion that has to follow it. -/
def convertedTree? (p : Place) (e : Element) (tree : NodeTree) : Option NodeTree :=
  match conversionPlan? r p e tree with
  | some plan => plan.tree? r trees
  | none => some tree

/-- The tree of a node without a definition. -/
def undefinedTree (e : Element) (path : String) : NodeTree :=
  { path, category := e.category, nodeDef := "", type := .ofName e.typeName, inputs := []
    code? := none }

/-- One step of unfolding a place. -/
def placeTreeWith? (p : Place) : Option NodeTree :=
  (r.document.element? p.path).bind fun e =>
    match r.document.nodeDefOfNode? e with
    | some nodeDef =>
      ((TreePlan.ofNode p e nodeDef).tree? r trees).bind (convertedTree? r trees p e)
    | none => some (undefinedTree e p.path)

end Unfolding

/-- The tree of a place, down to a depth. -/
def placeTree? (r : Request) : Nat → Place → Option NodeTree
  | 0 => fun _ => none
  | depth + 1 => placeTreeWith? r (placeTree? r depth)

/-- What the element to be drawn stands for: a node that is planned for it, or a place. -/
inductive Start
  | plan (p : TreePlan)
  | place (p : Place)

/-- What the element with a path stands for. -/
def start? (d : Document) (path : String) : Option Start :=
  (d.element? path).bind fun e =>
    let parent := (Document.splitPath path).1
    if e.category = "shaderref" then
      (d.nodeDefOfShaderRef? e).map fun nodeDef => .plan (.ofShaderRef e nodeDef path)
    else if e.category = "output" then
      ((d.element? parent).filter (·.category = "nodegraph")).bind fun graph =>
        (e.filled? "nodename").map fun name => .place ⟨{ graph := graph.name }, name⟩
    else some (.place ⟨{ graph := parent }, e.name⟩)

section Start

variable {d : Document} {path : String} {e : Element} (helement : d.element? path = some e)

include helement

theorem start?_shaderRef {nodeDef : Element} (hcategory : e.category = "shaderref")
    (hdef : d.nodeDefOfShaderRef? e = some nodeDef) :
    start? d path = some (.plan (.ofShaderRef e nodeDef path)) := by
  rw [start?, helement, Option.bind_some, if_pos hcategory, hdef]
  rfl

theorem start?_output {graph : Element} {name : String} (hcategory : e.category = "output")
    (hgraph : (d.element? (Document.splitPath path).1).filter (·.category = "nodegraph") =
      some graph) (hname : e.filled? "nodename" = some name) :
    start? d path = some (.place ⟨{ graph := graph.name }, name⟩) := by
  rw [start?, helement, Option.bind_some, if_neg (by rw [hcategory]; decide), if_pos hcategory,
    hgraph, Option.bind_some, hname]
  rfl

theorem start?_node (href : e.category ≠ "shaderref") (houtput : e.category ≠ "output") :
    start? d path = some (.place ⟨{ graph := (Document.splitPath path).1 }, e.name⟩) := by
  rw [start?, helement, Option.bind_some, if_neg href, if_neg houtput]

end Start

/-- The tree of what is drawn, given the trees of places. -/
def Start.tree? (r : Request) (trees : Place → Option NodeTree) : Start → Option NodeTree
  | .plan p => p.tree? r trees
  | .place p => trees p

/-- The plain unfolding of the element with a path, down to a depth. -/
def elementTree? (r : Request) (depth : Nat) (path : String) : Option NodeTree :=
  (start? r.document path).bind (Start.tree? r (placeTree? r depth))

/-! ## What an unfolding asks for -/

/-- What the builder keeps a node for: a place, or a geometric property. -/
inductive Task
  | place (p : Place)
  | property (name : String)

/-- The key under which the builder keeps the node. -/
def Task.key : Task → String
  | .place p => p.key
  | .property name => geometricKey name

/-- The tree of a task is the given one. -/
def Task.Unfolds (r : Request) : Task → NodeTree → Prop
  | .place p, tree => ∃ depth, placeTree? r depth p = some tree
  | .property name, tree => geometryTree? r name = some tree

mutual

/-- The plain unfolding of the element with a path unfolds a planned node. -/
inductive Planned (r : Request) (path : String) : TreePlan → Prop
  | start {p : TreePlan} (hstart : start? r.document path = some (.plan p)) : Planned r path p
  | node {p : Place} {e nodeDef : Element} (hplace : Asked r path (.place p))
      (helement : r.document.element? p.path = some e)
      (hdef : r.document.nodeDefOfNode? e = some nodeDef) : Planned r path (.ofNode p e nodeDef)
  | conversion {p : Place} {e nodeDef : Element} {depth : Nat} {tree : NodeTree} {plan : TreePlan}
      (hplace : Asked r path (.place p)) (helement : r.document.element? p.path = some e)
      (hdef : r.document.nodeDefOfNode? e = some nodeDef)
      (htree : (TreePlan.ofNode p e nodeDef).tree? r (placeTree? r depth) = some tree)
      (hplan : conversionPlan? r p e tree = some plan) : Planned r path plan

/-- The plain unfolding of the element with a path asks for the tree of a task. -/
inductive Asked (r : Request) (path : String) : Task → Prop
  | start {p : Place} (hstart : start? r.document path = some (.place p)) : Asked r path (.place p)
  | input {p : TreePlan} {defInput : Element} {target : Place} (hplan : Planned r path p)
      (hinput : defInput ∈ p.nodeDef.valueElements)
      (hadded : p.inst.connection? defInput.name = none)
      (href : p.reference r.document defInput = .place target) : Asked r path (.place target)
  | property {p : TreePlan} {defInput : Element} {name : String} (hplan : Planned r path p)
      (hinput : defInput ∈ p.nodeDef.valueElements)
      (hadded : p.inst.connection? defInput.name = none)
      (href : p.reference r.document defInput = .nothing)
      (hproperty : p.inst.property? defInput = some name)
      (hknown : (geometricProperty? name).isSome) : Asked r path (.property name)
  | inner {p : TreePlan} {depth : Nat} {inputs : List (TreeInput NodeTree)} {graph name : String}
      (hplan : Planned r path p)
      (hinputs : p.inputTrees? r (placeTree? r depth) = some inputs)
      (hexpansion : expansion? r p.nodeDef.name = some (graph, name)) :
      Asked r path (.place (p.inner inputs graph name))

end

/-! ## Greater depths -/

section Refines

variable {α β γ : Type} {f g : α → Option β} {xs : List α} {ys : List β}

/-- What one partial function finds is found by another one. -/
def Refines (f g : α → Option β) : Prop := ∀ ⦃x y⦄, f x = some y → g x = some y

theorem Refines.mapM (h : Refines f g) (hxs : xs.mapM f = some ys) : xs.mapM g = some ys :=
  mapM_eq_some_iff.mpr ((mapM_eq_some_iff.mp hxs).imp fun _ _ hx => h hx)

/-- What is found at two depths is the same. -/
theorem eq_of_refines {f : Nat → α → Option β} (hmono : ∀ {n m}, n ≤ m → Refines (f n) (f m))
    {n m : Nat} {x : α} {y y' : β} (hn : f n x = some y) (hm : f m x = some y') : y = y' := by
  have hn' := hmono (Nat.le_max_left n m) hn
  have hm' := hmono (Nat.le_max_right n m) hm
  exact Option.some.inj (hn'.symm.trans hm')

/-- What is found for each entry at some depth is found for all at one depth. -/
theorem exists_mapM_of_forall₂ {f : Nat → α → Option β}
    (hmono : ∀ {n m}, n ≤ m → Refines (f n) (f m))
    (h : List.Forall₂ (fun x y => ∃ n, f n x = some y) xs ys) : ∃ n, xs.mapM (f n) = some ys := by
  induction h with
  | nil => exact ⟨0, rfl⟩
  | cons hx _ ih =>
    obtain ⟨n, hn⟩ := hx
    obtain ⟨m, hm⟩ := ih
    refine ⟨max n m, mapM_eq_some_iff.mpr (.cons (hmono (Nat.le_max_left n m) hn) ?_)⟩
    exact mapM_eq_some_iff.mp ((hmono (Nat.le_max_right n m)).mapM hm)

end Refines

section Graph

variable {trees trees' : Nat → Option NodeTree} {nodes nodes' : List ShaderNode}
  {index n m : Nat} {tree tree' : NodeTree}

theorem inputTree?_refines (h : Refines trees trees') :
    Refines (inputTree? trees) (inputTree? trees') := by
  intro input t hinput
  obtain ⟨origin, horigin, rfl⟩ := Option.map_eq_some_iff.mp hinput
  refine Option.map_eq_some_iff.mpr ⟨origin, ?_, rfl⟩
  cases hb : input.binding with
  | connection i =>
    rw [hb] at horigin
    obtain ⟨source, hsource, rfl⟩ := Option.map_eq_some_iff.mp horigin
    exact Option.map_eq_some_iff.mpr ⟨source, h hsource, rfl⟩
  | uniform v => rw [hb] at horigin; exact horigin
  | constant v => rw [hb] at horigin; exact horigin
  | unbound => rw [hb] at horigin; exact horigin

theorem nodeTree?_refines (h : Refines trees trees') :
    Refines (nodeTree? trees) (nodeTree? trees') := by
  intro node t hnode
  obtain ⟨inputs, hinputs, rfl⟩ := Option.map_eq_some_iff.mp hnode
  exact Option.map_eq_some_iff.mpr ⟨inputs, (inputTree?_refines h).mapM hinputs, rfl⟩

/-- A tree is still there when nodes are added, and at a greater depth. -/
theorem treeAt?_refines (hnodes : nodes <+: nodes') (hnm : n ≤ m) :
    Refines (treeAt? nodes n) (treeAt? nodes' m) := by
  obtain ⟨more, rfl⟩ := hnodes
  induction n generalizing m with
  | zero => exact fun _ _ h => nomatch h
  | succ n ih =>
    obtain ⟨m, rfl⟩ := Nat.exists_eq_add_of_lt hnm
    intro i t ht
    obtain ⟨node, hnode, ht⟩ := Option.bind_eq_some_iff.mp ht
    obtain ⟨hlt, -⟩ := List.getElem?_eq_some_iff.mp hnode
    refine Option.bind_eq_some_iff.mpr ⟨node, ?_, nodeTree?_refines (ih (by omega)) ht⟩
    exact (List.getElem?_append_left hlt).trans hnode

theorem HasTree.grow (h : HasTree nodes index tree) (hnodes : nodes <+: nodes') :
    HasTree nodes' index tree := by
  obtain ⟨n, hn⟩ := h
  exact ⟨n, treeAt?_refines hnodes (Nat.le_refl n) hn⟩

theorem HasTree.unique (h : HasTree nodes index tree) (h' : HasTree nodes index tree') :
    tree = tree' := by
  obtain ⟨n, hn⟩ := h
  obtain ⟨m, hm⟩ := h'
  exact eq_of_refines (treeAt?_refines List.prefix_rfl) hn hm

/-- What has a tree is a node whose connections lead to trees. -/
theorem HasTree.exists_node (h : HasTree nodes index tree) :
    ∃ node depth, nodes[index]? = some node ∧
      nodeTree? (treeAt? nodes depth) node = some tree := by
  obtain ⟨depth, h⟩ := h
  cases depth with
  | zero => cases h
  | succ depth =>
    obtain ⟨node, hnode, htree⟩ := Option.bind_eq_some_iff.mp h
    exact ⟨node, depth, hnode, htree⟩

end Graph

section Document

variable {r : Request} {trees trees' : Place → Option NodeTree} {p : TreePlan} {place : Place}
  {e : Element} {n m : Nat} {task : Task} {tree tree' : NodeTree}

theorem planInput_refines (h : Refines trees trees') :
    Refines (p.inputTree? r trees) (p.inputTree? r trees') := by
  intro defInput t ht
  unfold TreePlan.inputTree? at ht ⊢
  cases hadded : p.inst.connection? defInput.name with
  | some source => rwa [hadded] at ht
  | none =>
    cases href : p.reference r.document defInput with
    | place target =>
      simp only [hadded, href] at ht ⊢
      obtain ⟨source, hsource, rfl⟩ := Option.map_eq_some_iff.mp ht
      exact Option.map_eq_some_iff.mpr ⟨source, h hsource, rfl⟩
    | outer input => simpa only [hadded, href] using ht
    | nothing => simpa only [hadded, href] using ht

theorem planInputs_refines (h : Refines trees trees') {inputs : List (TreeInput NodeTree)}
    (hinputs : p.inputTrees? r trees = some inputs) : p.inputTrees? r trees' = some inputs :=
  (planInput_refines h).mapM hinputs

theorem planTree_refines (h : Refines trees trees') (hp : p.tree? r trees = some tree) :
    p.tree? r trees' = some tree := by
  obtain ⟨inputs, hinputs, hp⟩ := Option.bind_eq_some_iff.mp hp
  refine Option.bind_eq_some_iff.mpr ⟨inputs, planInputs_refines h hinputs, ?_⟩
  cases hexpansion : expansion? r p.nodeDef.name with
  | some inner =>
    rw [hexpansion] at hp
    exact h hp
  | none => rwa [hexpansion] at hp

/-- What stands for a node with a tree: this tree, or that of the conversion after it. -/
theorem convertedTree?_eq_some_iff {own : NodeTree} :
    convertedTree? r trees place e own = some tree ↔
      (conversionPlan? r place e own = none ∧ tree = own) ∨
        ∃ plan, conversionPlan? r place e own = some plan ∧ plan.tree? r trees = some tree := by
  unfold convertedTree?
  cases conversionPlan? r place e own with
  | none => simp [eq_comm]
  | some plan => simp

theorem convertedTree_refines (h : Refines trees trees') :
    Refines (convertedTree? r trees place e) (convertedTree? r trees' place e) := by
  intro t t' ht
  rw [convertedTree?_eq_some_iff] at ht ⊢
  rcases ht with hown | ⟨plan, hplan, htree⟩
  · exact .inl hown
  · exact .inr ⟨plan, hplan, planTree_refines h htree⟩

theorem placeTreeWith_refines (h : Refines trees trees') :
    Refines (placeTreeWith? r trees) (placeTreeWith? r trees') := by
  intro place t ht
  obtain ⟨e, he, ht⟩ := Option.bind_eq_some_iff.mp ht
  refine Option.bind_eq_some_iff.mpr ⟨e, he, ?_⟩
  cases hdef : r.document.nodeDefOfNode? e with
  | some nodeDef =>
    simp only [hdef] at ht ⊢
    obtain ⟨source, hsource, ht⟩ := Option.bind_eq_some_iff.mp ht
    exact Option.bind_eq_some_iff.mpr
      ⟨source, planTree_refines h hsource, convertedTree_refines h ht⟩
  | none => simpa only [hdef] using ht

theorem placeTree?_refines (hnm : n ≤ m) : Refines (placeTree? r n) (placeTree? r m) := by
  induction n generalizing m with
  | zero => exact fun _ _ h => nomatch h
  | succ n ih =>
    obtain ⟨m, rfl⟩ := Nat.exists_eq_add_of_lt hnm
    exact placeTreeWith_refines (ih (by omega))

theorem elementTree?_mono {path : String} (hnm : n ≤ m)
    (h : elementTree? r n path = some tree) : elementTree? r m path = some tree := by
  obtain ⟨start, hstart, h⟩ := Option.bind_eq_some_iff.mp h
  refine Option.bind_eq_some_iff.mpr ⟨start, hstart, ?_⟩
  cases start with
  | plan p => exact planTree_refines (placeTree?_refines hnm) h
  | place p => exact placeTree?_refines hnm h

theorem planTree?_unique (hn : p.tree? r (placeTree? r n) = some tree)
    (hm : p.tree? r (placeTree? r m) = some tree') : tree = tree' :=
  eq_of_refines (f := fun n (p : TreePlan) => p.tree? r (placeTree? r n))
    (fun hnm _ _ h => planTree_refines (placeTree?_refines hnm) h) hn hm

theorem inputTrees?_unique {inputs inputs' : List (TreeInput NodeTree)}
    (hn : p.inputTrees? r (placeTree? r n) = some inputs)
    (hm : p.inputTrees? r (placeTree? r m) = some inputs') : inputs = inputs' :=
  eq_of_refines (f := fun n (p : TreePlan) => p.inputTrees? r (placeTree? r n))
    (fun hnm _ _ h => planInputs_refines (placeTree?_refines hnm) h) hn hm

theorem Task.Unfolds.unique (h : task.Unfolds r tree) (h' : task.Unfolds r tree') :
    tree = tree' := by
  cases task with
  | place p =>
    obtain ⟨n, hn⟩ := h
    obtain ⟨m, hm⟩ := h'
    exact eq_of_refines placeTree?_refines hn hm
  | property name => exact Option.some.inj (h.symm.trans h')

end Document

end MaterialViewer.Graph
