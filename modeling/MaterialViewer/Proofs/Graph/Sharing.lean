import MaterialViewer.Proofs.Graph.Sample
import MaterialViewer.Proofs.Graph.Unfolding

/-!
# Proofs: sharing nodes

The builder keeps one node for each key. The plain unfolding of the document has no keys: it works
out what is referred to for each reference. Both come to the same exactly if no key is used for two
tasks with different trees.

Along a run, every node in the table has the tree of some task with its key, and what stands for the
inputs of an outer node has the trees of those inputs. One step of the walk keeps this if the keys
that are recorded in the end agree.
-/

namespace MaterialViewer.Graph

variable {r : Request} {walk : Walk} {path : String} {b b₁ b₂ b' : Build} {index : Nat}

/-! ## What is recorded -/

/-- There is a node for a key. -/
def Recorded (b : Build) (key : String) : Prop := ∃ index, Ordered.get? key b.built = some index

/-- Nodes and keys are added, but not removed. -/
structure Extends (b b' : Build) : Prop where
  nodes : b.nodes <+: b'.nodes
  recorded : ∀ key, Recorded b key → Recorded b' key

theorem Extends.refl (b : Build) : Extends b b := ⟨List.prefix_rfl, fun _ h => h⟩

theorem Extends.trans (h₁ : Extends b b₁) (h₂ : Extends b₁ b₂) : Extends b b₂ :=
  ⟨h₁.nodes.trans h₂.nodes, fun key h => h₂.recorded key (h₁.recorded key h)⟩

theorem Extends.of_built_eq (hnodes : b.nodes <+: b'.nodes) (hbuilt : b'.built = b.built) :
    Extends b b' :=
  ⟨hnodes, fun _ ⟨i, hi⟩ => ⟨i, hbuilt ▸ hi⟩⟩

theorem freshName_extends {base name : String} (h : freshName base b = .ok (name, b')) :
    Extends b b' := by
  obtain ⟨-, rfl⟩ := freshName_ok.mp h
  exact .of_built_eq List.prefix_rfl rfl

theorem pushNode_extends {node : ShaderNode} (h : pushNode node b = .ok (index, b')) :
    Extends b b' := by
  obtain ⟨-, rfl⟩ := pushNode_ok.mp h
  exact .of_built_eq (List.prefix_append _ _) rfl

theorem beginNode_extends {key : String} (h : beginNode key b = .ok ((), b')) : Extends b b' := by
  obtain rfl := beginNode_ok.mp h
  exact .of_built_eq List.prefix_rfl rfl

theorem endNode_extends {key : String} (h : endNode key b = .ok ((), b')) : Extends b b' := by
  obtain rfl := endNode_ok.mp h
  exact .of_built_eq List.prefix_rfl rfl

theorem recordBuilt_extends {key : String} (h : recordBuilt key index b = .ok ((), b')) :
    Extends b b' := by
  obtain rfl := recordBuilt_ok.mp h
  refine ⟨List.prefix_rfl, fun key' ⟨i, hi⟩ => ?_⟩
  by_cases hkey : key' = key
  · exact ⟨index, hkey ▸ Ordered.get?_put_self _ _ _⟩
  · exact ⟨i, (Ordered.get?_put_of_ne hkey _ _).trans hi⟩

theorem classify_extends {p : Parameter} {isAuthored : Bool} {binding : InputBinding}
    (h : ClassifyStep r p isAuthored b binding b') : Extends b b' := by
  cases h with
  | fixed _ => exact .refl b
  | registered _ => exact .of_built_eq List.prefix_rfl rfl

theorem geometry_extends {property : String} {found? : Option Nat}
    (h : GeometryStep r property b found? b') : Extends b b' := by
  cases h with
  | unknown _ => exact .refl b
  | known _ _ => exact .refl b
  | new _ _ hname hpush hrecord =>
    exact (freshName_extends hname).trans
      ((pushNode_extends hpush).trans (recordBuilt_extends hrecord))

/-- The walk only extends the build. -/
def WalkExtends (walk : Walk) : Prop :=
  ∀ ⦃scope name isRoot b index b'⦄, walk scope name isRoot b = .ok (index, b') → Extends b b'

section Extends

variable {scope : Scope} {inst : Instance Nat} {nodeName nodePath : String}

theorem input_extends (hwalk : WalkExtends walk) {defInput : Element} {input : ShaderInput}
    (h : InputStep r walk scope inst nodeName nodePath defInput b input b') : Extends b b' := by
  cases h with
  | added _ => exact .refl b
  | node _ _ hrun => exact hwalk hrun
  | outer _ _ => exact .refl b
  | own _ _ hstep =>
    cases hstep with
    | geometry _ hstep => exact geometry_extends hstep
    | bound _ hstep => exact classify_extends hstep

theorem inputs_extends (hwalk : WalkExtends walk) {defInputs : List Element}
    {inputs : List ShaderInput}
    (h : InputsStep r walk scope inst nodeName nodePath defInputs b inputs b') : Extends b b' := by
  induction h with
  | nil => exact .refl _
  | cons hinput _ ih => exact (input_extends hwalk hinput).trans ih

theorem add_extends (hwalk : WalkExtends walk) {d : Draft} (h : AddStep r walk d b index b') :
    Extends b b' := by
  cases h with
  | inner _ hrun => exact hwalk hrun
  | single _ _ hpush => exact pushNode_extends hpush

theorem plan_extends (hwalk : WalkExtends walk) {p : Plan} (h : PlanStep r walk p b index b') :
    Extends b b' := by
  obtain ⟨hname, hinputs, hadd⟩ := h
  exact (freshName_extends hname).trans
    ((inputs_extends hwalk hinputs).trans (add_extends hwalk hadd))

theorem conversion_extends (hwalk : WalkExtends walk) {e : Element} {index' : Nat}
    (h : ConversionStep r walk scope e index path b index' b') : Extends b b' := by
  cases h with
  | missing _ => exact .refl b
  | unneeded _ _ => exact .refl b
  | needed _ _ hplan => exact plan_extends hwalk hplan

theorem element_extends (hwalk : WalkExtends walk) {e : Element} {key : String} {isRoot : Bool}
    (h : ElementStep r walk scope e key path isRoot b index b') : Extends b b' := by
  cases h with
  | defined _ hplan hconversion =>
    exact (plan_extends hwalk hplan).trans (conversion_extends hwalk hconversion)
  | undefined _ _ hname hpush => exact (freshName_extends hname).trans (pushNode_extends hpush)

theorem buildNode_extends (r : Request) (depth : Nat) : WalkExtends (buildNode r depth) := by
  induction depth with
  | zero => exact fun _ _ _ _ _ _ hrun => absurd hrun throw_ok
  | succ depth ih =>
    intro scope name isRoot b index b' hrun
    cases buildNodeWith_ok hrun with
    | known _ => exact .refl b
    | new _ _ hbegin _ hstep hend hrecord =>
      exact (beginNode_extends hbegin).trans ((element_extends ih hstep).trans
        ((endNode_extends hend).trans (recordBuilt_extends hrecord)))

end Extends

/-! ## The table -/

/-- Every node in the table has the tree of a task with its key. -/
def Table (r : Request) (path : String) (b : Build) : Prop :=
  ∀ key index, Ordered.get? key b.built = some index → ∃ task tree,
    Asked r path task ∧ task.key = key ∧ task.Unfolds r tree ∧ HasTree b.nodes index tree

/-- The tasks for a key that is recorded have one tree. -/
def KeysAgree (r : Request) (path : String) (b : Build) : Prop :=
  ∀ task task', Asked r path task → Asked r path task' → task.key = task'.key →
    Recorded b task.key → ∀ tree, task.Unfolds r tree → task'.Unfolds r tree

theorem KeysAgree.of_extends (h : KeysAgree r path b') (hb : Extends b b') : KeysAgree r path b :=
  fun task task' ht ht' hkey hrec => h task task' ht ht' hkey (hb.recorded _ hrec)

theorem Table.of_built_eq (h : Table r path b) (hnodes : b.nodes <+: b'.nodes)
    (hbuilt : b'.built = b.built) : Table r path b' := by
  intro key i hi
  obtain ⟨task, tree, hasked, hkey, hunfolds, htree⟩ := h key i (hbuilt ▸ hi)
  exact ⟨task, tree, hasked, hkey, hunfolds, htree.grow hnodes⟩

theorem Table.freshName {base name : String} (h : Table r path b)
    (hname : freshName base b = .ok (name, b')) : Table r path b' := by
  obtain ⟨-, rfl⟩ := freshName_ok.mp hname
  exact h.of_built_eq List.prefix_rfl rfl

theorem Table.pushNode {node : ShaderNode} (h : Table r path b)
    (hpush : pushNode node b = .ok (index, b')) : Table r path b' := by
  obtain ⟨-, rfl⟩ := pushNode_ok.mp hpush
  exact h.of_built_eq (List.prefix_append _ _) rfl

theorem Table.beginNode {key : String} (h : Table r path b)
    (hbegin : beginNode key b = .ok ((), b')) : Table r path b' := by
  obtain rfl := beginNode_ok.mp hbegin
  exact h.of_built_eq List.prefix_rfl rfl

theorem Table.endNode {key : String} (h : Table r path b)
    (hend : endNode key b = .ok ((), b')) : Table r path b' := by
  obtain rfl := endNode_ok.mp hend
  exact h.of_built_eq List.prefix_rfl rfl

/-- If the keys agree, the table answers for a task with a node that has its tree. -/
theorem Table.answer (h : Table r path b) (hagree : KeysAgree r path b) {task : Task}
    (hasked : Asked r path task) (hbuilt : Ordered.get? task.key b.built = some index) :
    ∃ tree, task.Unfolds r tree ∧ HasTree b.nodes index tree := by
  obtain ⟨task', tree, hasked', hkey, hunfolds, htree⟩ := h _ _ hbuilt
  have hrec : Recorded b task'.key := ⟨index, hkey ▸ hbuilt⟩
  exact ⟨tree, hagree task' task hasked' hasked hkey hrec tree hunfolds, htree⟩

theorem Table.record (h : Table r path b) {task : Task} {tree : NodeTree}
    (hasked : Asked r path task) (hunfolds : task.Unfolds r tree)
    (htree : HasTree b.nodes index tree)
    (hrecord : recordBuilt task.key index b = .ok ((), b')) :
    Table r path b' ∧ HasTree b'.nodes index tree := by
  obtain rfl := recordBuilt_ok.mp hrecord
  refine ⟨fun key i hi => ?_, htree⟩
  by_cases hkey : key = task.key
  · rw [hkey, Ordered.get?_put_self] at hi
    obtain rfl := Option.some.inj hi
    exact ⟨task, tree, hasked, hkey.symm, hunfolds, htree⟩
  · rw [Ordered.get?_put_of_ne hkey] at hi
    exact h key i hi

/-- A node that is pushed has the tree that its inputs give. -/
theorem HasTree.push {node : ShaderNode} {tree : NodeTree} {depth : Nat}
    (hnode : nodeTree? (treeAt? b.nodes depth) node = some tree)
    (hpush : pushNode node b = .ok (index, b')) : HasTree b'.nodes index tree := by
  obtain ⟨rfl, rfl⟩ := pushNode_ok.mp hpush
  refine ⟨depth + 1, Option.bind_eq_some_iff.mpr ⟨node, List.getElem?_concat_length, ?_⟩⟩
  exact nodeTree?_refines (treeAt?_refines (List.prefix_append _ _) (Nat.le_refl depth)) hnode

/-! ## The builder and the plain unfolding side by side -/

/-- An input of a node has a tree. -/
def InputHasTree (nodes : List ShaderNode) (input : ShaderInput) (t : TreeInput NodeTree) : Prop :=
  ∃ depth, inputTree? (treeAt? nodes depth) input = some t

/-- The builder looks names up where the plain unfolding does. -/
structure ScopeTree (nodes : List ShaderNode) (scope : Scope) (scope' : TreeScope) : Prop where
  graph : scope.graph = scope'.graph
  keyPrefix : scope.keyPrefix = scope'.keyPrefix
  interface : Option.Rel (List.Forall₂ (InputHasTree nodes)) scope.interface? scope'.interface?

/-- What is nothing, a place or an input of an outer node is so for both. -/
inductive ReferenceTree (nodes : List ShaderNode) : Reference → TreeReference → Prop
  | node {scope : Scope} {scope' : TreeScope} {name : String}
      (hscope : ScopeTree nodes scope scope') :
      ReferenceTree nodes (.node scope name) (.place ⟨scope', name⟩)
  | outer {input : ShaderInput} {t : TreeInput NodeTree} (hinput : InputHasTree nodes input t) :
      ReferenceTree nodes (.outer input) (.outer t)
  | nothing : ReferenceTree nodes .nothing .nothing

/-- A node is authored alike for both. -/
structure InstanceTree (nodes : List ShaderNode) (inst : Instance Nat) (inst' : Instance NodeTree) :
    Prop where
  input : inst.input? = inst'.input?
  category : inst.category = inst'.category
  connected : ∀ name index, inst.connection? name = some index →
    ∃ tree, inst'.connection? name = some tree ∧ HasTree nodes index tree
  unconnected : ∀ name, inst.connection? name = none → inst'.connection? name = none

/-- Both plan the same node. -/
structure PlanTree (nodes : List ShaderNode) (p : Plan) (p' : TreePlan) : Prop where
  scope : ScopeTree nodes p.scope p'.scope
  inst : InstanceTree nodes p.inst p'.inst
  nodeDef : p.nodeDef = p'.nodeDef
  type : p.type = p'.type
  key : p.key = p'.key
  path : p.path = p'.path

section Growing

variable {nodes nodes' : List ShaderNode}

theorem InputHasTree.grow {input : ShaderInput} {t : TreeInput NodeTree}
    (h : InputHasTree nodes input t) (hnodes : nodes <+: nodes') : InputHasTree nodes' input t := by
  obtain ⟨n, hn⟩ := h
  exact ⟨n, inputTree?_refines (treeAt?_refines hnodes (Nat.le_refl n)) hn⟩

theorem InputHasTree.of_hasTree {tree : NodeTree} (h : HasTree nodes index tree)
    (defInput : Element) :
    InputHasTree nodes (connectedInput defInput index) (treeInput defInput tree) := by
  obtain ⟨n, hn⟩ := h
  refine ⟨n, ?_⟩
  simp only [inputTree?, connectedInput, connected, bindingOrigin?, hn]
  rfl

/-- The name and the type of an input are not part of what its tree is made of. -/
theorem InputHasTree.rename {input : ShaderInput} {t : TreeInput NodeTree}
    (h : InputHasTree nodes input t) (name : String) (type : ValueType) :
    InputHasTree nodes { input with name, type } { t with name, type } := by
  obtain ⟨n, hn⟩ := h
  obtain ⟨origin, horigin, rfl⟩ := Option.map_eq_some_iff.mp hn
  exact ⟨n, Option.map_eq_some_iff.mpr ⟨origin, horigin, rfl⟩⟩

theorem InputHasTree.name_eq {input : ShaderInput} {t : TreeInput NodeTree}
    (h : InputHasTree nodes input t) : t.name = input.name ∧ t.type = input.type := by
  obtain ⟨n, hn⟩ := h
  obtain ⟨origin, -, rfl⟩ := Option.map_eq_some_iff.mp hn
  exact ⟨rfl, rfl⟩

theorem ScopeTree.grow {scope : Scope} {scope' : TreeScope} (h : ScopeTree nodes scope scope')
    (hnodes : nodes <+: nodes') : ScopeTree nodes' scope scope' := by
  refine { h with interface := ?_ }
  have hinterface := h.interface
  generalize scope.interface? = x at hinterface ⊢
  generalize scope'.interface? = y at hinterface ⊢
  cases hinterface with
  | none => exact .none
  | some hinputs => exact .some (hinputs.imp fun _ _ hinput => hinput.grow hnodes)

theorem InstanceTree.grow {inst : Instance Nat} {inst' : Instance NodeTree}
    (h : InstanceTree nodes inst inst') (hnodes : nodes <+: nodes') :
    InstanceTree nodes' inst inst' := by
  refine { h with connected := fun name i hi => ?_ }
  obtain ⟨tree, hadded, htree⟩ := h.connected name i hi
  exact ⟨tree, hadded, htree.grow hnodes⟩

theorem PlanTree.grow {p : Plan} {p' : TreePlan} (h : PlanTree nodes p p')
    (hnodes : nodes <+: nodes') : PlanTree nodes' p p' :=
  { h with scope := h.scope.grow hnodes, inst := h.inst.grow hnodes }

end Growing

/-! ## Inputs -/

section Inputs

variable {nodes : List ShaderNode} {scope : Scope} {scope' : TreeScope} {inst : Instance Nat}
  {inst' : Instance NodeTree} {p' : TreePlan} {defInput : Element} {input : ShaderInput}

theorem find?_rel {α β : Type} {R : α → β → Prop} {p : α → Bool} {q : β → Bool} {xs : List α}
    {ys : List β} (hpq : ∀ x y, R x y → p x = q y) (h : List.Forall₂ R xs ys) :
    Option.Rel R (xs.find? p) (ys.find? q) := by
  induction h with
  | nil => exact .none
  | @cons x y _ _ hxy _ ih =>
    cases hx : p x with
    | true =>
      rw [List.find?_cons_of_pos hx, List.find?_cons_of_pos (hpq x y hxy ▸ hx)]
      exact .some hxy
    | false =>
      have hy : ¬ q y = true := by simp [← hpq x y hxy, hx]
      rw [List.find?_cons_of_neg (by simp [hx]), List.find?_cons_of_neg hy]
      exact ih

theorem ScopeTree.outerInput (h : ScopeTree nodes scope scope') (name : String) :
    Option.Rel (InputHasTree nodes) (scope.outerInput? name)
      (scope'.interface?.bind (·.find? (·.name = name))) := by
  unfold Scope.outerInput?
  have hinterface := h.interface
  generalize scope.interface? = x at hinterface ⊢
  generalize scope'.interface? = y at hinterface ⊢
  cases hinterface with
  | none => exact .none
  | some hinputs =>
    refine find?_rel (fun input t hinput => ?_) hinputs
    rw [hinput.name_eq.1]

theorem ScopeTree.follow (h : ScopeTree nodes scope scope') (link : Link) :
    ReferenceTree nodes (scope.follow link) (scope'.follow link) := by
  cases link with
  | node name => exact .node h
  | output graph name => exact .node ⟨rfl, h.keyPrefix, .none⟩
  | interface name =>
    have houter := h.outerInput name
    simp only [Scope.follow, TreeScope.follow]
    generalize scope.outerInput? name = x at houter ⊢
    generalize scope'.interface?.bind (·.find? (·.name = name)) = y at houter ⊢
    cases houter with
    | none => exact .nothing
    | some hinput => exact .outer hinput
  | nothing => exact .nothing

theorem InstanceTree.link_eq (h : InstanceTree nodes inst inst') (d : Document) (graph : String) :
    inst.link d graph defInput = inst'.link d graph defInput := by
  simp only [Instance.link, h.input]

theorem InstanceTree.valueOf?_eq (h : InstanceTree nodes inst inst') :
    inst.valueOf? defInput = inst'.valueOf? defInput := by
  simp only [Instance.valueOf?, h.input]

theorem InstanceTree.valueOrDefault?_eq (h : InstanceTree nodes inst inst') :
    inst.valueOrDefault? defInput = inst'.valueOrDefault? defInput := by
  simp only [Instance.valueOrDefault?, h.valueOf?_eq]

theorem InstanceTree.property?_eq (h : InstanceTree nodes inst inst') :
    inst.property? defInput = inst'.property? defInput := by
  simp only [Instance.property?, h.valueOf?_eq]

/-- The node that reads a geometric property is not connected to anything. -/
theorem exists_geometryTree {property : String} {source : ShaderNode}
    (h : geometricSource? r property = some source) :
    ∃ tree, geometryTree? r property = some tree ∧
      ∀ nodes name, nodeTree? (treeAt? nodes 0) { source with name } = some tree := by
  obtain ⟨⟨nodeDef, category, type, index?⟩, -, hsource⟩ := Option.bind_eq_some_iff.mp h
  obtain ⟨reader, -, rfl⟩ := Option.map_eq_some_iff.mp hsource
  unfold geometryTree?
  rw [h]
  cases index? with
  | none => exact ⟨_, rfl, fun _ _ => rfl⟩
  | some i => exact ⟨_, rfl, fun _ _ => rfl⟩

/-- The node that is found for a geometric property reads it. -/
theorem geometry_tree {property : String} (hstep : GeometryStep r property b (some index) b')
    (hasked : Asked r path (.property property)) (ht : Table r path b)
    (hagree : KeysAgree r path b') :
    Table r path b' ∧
      ∃ tree, geometryTree? r property = some tree ∧ HasTree b'.nodes index tree := by
  cases hstep with
  | known _ hbuilt => exact ⟨ht, ht.answer hagree hasked hbuilt⟩
  | new hsource _ hname hpush hrecord =>
    obtain ⟨tree, hgeometry, htree⟩ := exists_geometryTree hsource
    have hnode := HasTree.push (htree _ _) hpush
    obtain ⟨ht', hnode'⟩ :=
      ((ht.freshName hname).pushNode hpush).record hasked hgeometry hnode hrecord
    exact ⟨ht', tree, hgeometry, hnode'⟩

theorem geometry_known {property : String} (hstep : GeometryStep r property b (some index) b') :
    (geometricProperty? property).isSome := by
  cases hstep with
  | known hproperty _ => exact hproperty
  | new hsource _ _ _ _ =>
    obtain ⟨p, hp, -⟩ := Option.bind_eq_some_iff.mp hsource
    exact hp ▸ rfl

/-- A binding that is no connection has the same origin whatever the trees of the nodes are. -/
theorem bindingOrigin?_fixed {type : ValueType} {value? : Option Value} {isAuthored : Bool}
    {binding : InputBinding} {trees : Nat → Option NodeTree}
    (hfixed : fixedBinding? r type value? isAuthored = some binding) :
    bindingOrigin? trees binding = some (((fixedBinding? r type value? isAuthored).bind
      (bindingOrigin? fun _ => none)).getD .uniform) := by
  rw [hfixed]
  cases binding with
  | connection i => exact absurd hfixed fixedBinding?_ne_connection
  | uniform v => rfl
  | constant v => rfl
  | unbound => rfl

theorem classify_tree {nodeName nodePath : String} {binding : InputBinding}
    (hinst : InstanceTree nodes inst inst')
    (hstep : ClassifyStep r (inst.parameter nodeName nodePath defInput)
      (inst.valueOf? defInput).isSome b binding b') (ht : Table r path b) :
    Table r path b' ∧
      ∀ trees, bindingOrigin? trees binding = some (inst'.ownOrigin r defInput) := by
  unfold Instance.ownOrigin
  rw [← hinst.valueOf?_eq, ← hinst.valueOrDefault?_eq]
  cases hstep with
  | fixed hfixed => exact ⟨ht, fun trees => bindingOrigin?_fixed hfixed⟩
  | registered hfixed =>
    refine ⟨ht.of_built_eq List.prefix_rfl rfl, fun trees => ?_⟩
    change fixedBinding? r (.ofName defInput.typeName) (inst.valueOrDefault? defInput)
      (inst.valueOf? defInput).isSome = none at hfixed
    rw [hfixed]
    rfl

theorem ownInput_tree {nodeName nodePath : String} (hinst : InstanceTree b.nodes inst inst')
    (hstep : OwnInputStep r inst nodeName nodePath defInput b input b')
    (hasked : ∀ property, inst'.property? defInput = some property →
      (geometricProperty? property).isSome → Asked r path (.property property))
    (ht : Table r path b) (hagree : KeysAgree r path b') :
    Table r path b' ∧ InputHasTree b'.nodes input (inst'.ownTree r defInput) := by
  unfold Instance.ownTree
  cases hstep with
  | geometry hproperty hstep =>
    rw [hinst.property?_eq] at hproperty
    have hask := hasked _ hproperty (geometry_known hstep)
    obtain ⟨ht', tree, hgeometry, htree⟩ := geometry_tree hstep hask ht hagree
    rw [hproperty, Option.bind_some, hgeometry]
    exact ⟨ht', .of_hasTree htree defInput⟩
  | bound hproperty hstep =>
    have hnone : (inst'.property? defInput).bind (geometryTree? r) = none := by
      rw [Option.bind_eq_none_iff]
      intro property hp
      rw [geometryTree?, hproperty property (hinst.property?_eq ▸ hp)]
      rfl
    obtain ⟨ht', horigin⟩ := classify_tree hinst hstep ht
    rw [hnone]
    refine ⟨ht', 0, Option.map_eq_some_iff.mpr ⟨_, horigin _, ?_⟩⟩
    rw [← hinst.valueOrDefault?_eq]
    rfl

/-- What the walk is expected to find: the tree of the place it is sent to. -/
def WalkTrees (r : Request) (path : String) (walk : Walk) : Prop :=
  ∀ ⦃scope name isRoot b index b'⦄, walk scope name isRoot b = .ok (index, b') →
    ∀ ⦃scope'⦄, ScopeTree b.nodes scope scope' → Asked r path (.place ⟨scope', name⟩) →
      Table r path b → KeysAgree r path b' → Table r path b' ∧
        ∃ tree, (Task.place ⟨scope', name⟩).Unfolds r tree ∧ HasTree b'.nodes index tree

/-- A planned input of the plain unfolding has a tree at some depth. -/
def TreePlan.InputUnfolds (r : Request) (p : TreePlan) (defInput : Element)
    (t : TreeInput NodeTree) : Prop :=
  ∃ depth, p.inputTree? r (placeTree? r depth) defInput = some t

theorem input_tree (hwalk : WalkTrees r path walk) {nodeName nodePath : String}
    (hplanned : Planned r path p') (hmem : defInput ∈ p'.nodeDef.valueElements)
    (hscope : ScopeTree b.nodes scope p'.scope) (hinst : InstanceTree b.nodes inst p'.inst)
    (hstep : InputStep r walk scope inst nodeName nodePath defInput b input b')
    (ht : Table r path b) (hagree : KeysAgree r path b') :
    Table r path b' ∧ ∃ t, p'.InputUnfolds r defInput t ∧ InputHasTree b'.nodes input t := by
  have href' : ReferenceTree b.nodes (scope.follow (inst.link r.document scope.graph defInput))
      (p'.reference r.document defInput) := by
    rw [hinst.link_eq, hscope.graph]
    exact hscope.follow _
  unfold TreePlan.InputUnfolds TreePlan.inputTree?
  generalize hreference : p'.reference r.document defInput = reference at href' ⊢
  cases hstep with
  | added hadded =>
    obtain ⟨tree, hadded', htree⟩ := hinst.connected _ _ hadded
    simp only [hadded']
    exact ⟨ht, _, ⟨0, rfl⟩, .of_hasTree htree defInput⟩
  | node hadded href hrun =>
    have hadded' := hinst.unconnected _ hadded
    rw [href] at href'
    cases href' with
    | node hscope' =>
      have hasked := Asked.input hplanned hmem hadded' hreference
      obtain ⟨ht', tree, ⟨depth, hunfolds⟩, htree⟩ := hwalk hrun hscope' hasked ht hagree
      simp only [hadded']
      exact ⟨ht', _, ⟨depth, Option.map_eq_some_iff.mpr ⟨tree, hunfolds, rfl⟩⟩,
        .of_hasTree htree defInput⟩
  | outer hadded href =>
    have hadded' := hinst.unconnected _ hadded
    rw [href] at href'
    cases href' with
    | outer hinput =>
      simp only [hadded']
      exact ⟨ht, _, ⟨0, rfl⟩, hinput.rename _ _⟩
  | own hadded href hstep =>
    have hadded' := hinst.unconnected _ hadded
    rw [href] at href'
    cases href' with
    | nothing =>
      obtain ⟨ht', htree⟩ := ownInput_tree hinst hstep
        (fun _ hp hknown => .property hplanned hmem hadded' hreference hp hknown) ht hagree
      simp only [hadded']
      exact ⟨ht', _, ⟨0, rfl⟩, htree⟩

theorem inputs_tree (hwalk : WalkTrees r path walk) (hextends : WalkExtends walk)
    {nodeName nodePath : String} {defInputs : List Element} {inputs : List ShaderInput}
    (hplanned : Planned r path p') (hmem : defInputs ⊆ p'.nodeDef.valueElements)
    (hscope : ScopeTree b.nodes scope p'.scope) (hinst : InstanceTree b.nodes inst p'.inst)
    (hstep : InputsStep r walk scope inst nodeName nodePath defInputs b inputs b')
    (ht : Table r path b) (hagree : KeysAgree r path b') :
    Table r path b' ∧ ∃ ts, List.Forall₂ (p'.InputUnfolds r) defInputs ts ∧
      List.Forall₂ (InputHasTree b'.nodes) inputs ts := by
  induction hstep with
  | nil => exact ⟨ht, [], .nil, .nil⟩
  | cons hinput hinputs ih =>
    have hx := input_extends hextends hinput
    have hx' := inputs_extends hextends hinputs
    obtain ⟨hhead, htail⟩ := List.cons_subset.mp hmem
    obtain ⟨ht₁, t, hunfolds, htree⟩ :=
      input_tree hwalk hplanned hhead hscope hinst hinput ht (hagree.of_extends hx')
    obtain ⟨ht₂, ts, hunfold, htrees⟩ :=
      ih htail (hscope.grow hx.nodes) (hinst.grow hx.nodes) ht₁ hagree
    exact ⟨ht₂, t :: ts, .cons hunfolds hunfold, .cons (htree.grow hx'.nodes) htrees⟩

end Inputs

/-! ## Nodes -/

/-- A planned node of the plain unfolding has a tree at some depth. -/
def TreePlan.Unfolds (r : Request) (p : TreePlan) (tree : NodeTree) : Prop :=
  ∃ depth, p.tree? r (placeTree? r depth) = some tree

section Nodes

variable {scope : Scope} {place : Place} {e nodeDef : Element} {tree : NodeTree}
  {nodes : List ShaderNode}

/-- A node that is added without a node graph in its place has the tree of its plan. -/
theorem draft_tree {d : Draft} {p' : TreePlan} {ts : List (TreeInput NodeTree)}
    (hplan : PlanTree nodes d.toPlan p') (htrees : List.Forall₂ (InputHasTree nodes) d.inputs ts) :
    ∃ depth, nodeTree? (treeAt? nodes depth) (d.node (code? r d.nodeDef.name)) =
      some (p'.node r ts) := by
  obtain ⟨depth, hinputs⟩ := exists_mapM_of_forall₂
    (fun hnm => inputTree?_refines (treeAt?_refines List.prefix_rfl hnm)) htrees
  refine ⟨depth, Option.map_eq_some_iff.mpr ⟨ts, hinputs, ?_⟩⟩
  simp only [Draft.node, TreePlan.node, hplan.path, hplan.nodeDef, hplan.type, hplan.inst.category]

/-- The inputs of a node stand for the interface of the node graph in its place. -/
theorem innerScope_tree {d : Draft} {p' : TreePlan} {ts : List (TreeInput NodeTree)}
    (hplan : PlanTree nodes d.toPlan p') (htrees : List.Forall₂ (InputHasTree nodes) d.inputs ts)
    (graph name : String) : ScopeTree nodes (d.innerScope graph) (p'.inner ts graph name).scope :=
  ⟨rfl, congrArg (· ++ ">") hplan.key, .some htrees⟩

theorem add_tree (hwalk : WalkTrees r path walk) {d : Draft} {p' : TreePlan}
    {ts : List (TreeInput NodeTree)} {n : Nat} (hplan : PlanTree b.nodes d.toPlan p')
    (hplanned : Planned r path p') (hinputs : p'.inputTrees? r (placeTree? r n) = some ts)
    (htrees : List.Forall₂ (InputHasTree b.nodes) d.inputs ts) (hstep : AddStep r walk d b index b')
    (ht : Table r path b) (hagree : KeysAgree r path b') :
    Table r path b' ∧ ∃ tree, p'.Unfolds r tree ∧ HasTree b'.nodes index tree := by
  cases hstep with
  | @inner graph name _ _ hexpansion hrun =>
    rw [hplan.nodeDef] at hexpansion
    have hasked := Asked.inner hplanned hinputs hexpansion
    obtain ⟨ht', tree, ⟨m, hm⟩, htree⟩ :=
      hwalk hrun (innerScope_tree hplan htrees graph name) hasked ht hagree
    refine ⟨ht', tree, ⟨max n m, Option.bind_eq_some_iff.mpr ⟨ts, ?_, ?_⟩⟩, htree⟩
    · exact planInputs_refines (placeTree?_refines (Nat.le_max_left n m)) hinputs
    · rw [hexpansion]
      exact placeTree?_refines (Nat.le_max_right n m) hm
  | single hexpansion _ hpush =>
    rw [hplan.nodeDef] at hexpansion
    obtain ⟨depth, hnode⟩ := draft_tree (r := r) hplan htrees
    refine ⟨ht.pushNode hpush, p'.node r ts, ⟨n, ?_⟩, .push hnode hpush⟩
    refine Option.bind_eq_some_iff.mpr ⟨ts, hinputs, ?_⟩
    rw [hexpansion]

theorem plan_tree (hwalk : WalkTrees r path walk) (hextends : WalkExtends walk) {p : Plan}
    {p' : TreePlan} (hplan : PlanTree b.nodes p p') (hplanned : Planned r path p')
    (hstep : PlanStep r walk p b index b') (ht : Table r path b) (hagree : KeysAgree r path b') :
    Table r path b' ∧ ∃ tree, p'.Unfolds r tree ∧ HasTree b'.nodes index tree := by
  obtain ⟨hname, hinputs, hadd⟩ := hstep
  have hplan₁ := hplan.grow (freshName_extends hname).nodes
  have hplan₂ := hplan₁.grow (inputs_extends hextends hinputs).nodes
  rw [hplan.nodeDef] at hinputs
  obtain ⟨ht₂, ts, hunfold, htrees⟩ := inputs_tree hwalk hextends hplanned (fun _ h => h)
    hplan₁.scope hplan₁.inst hinputs (ht.freshName hname)
    (hagree.of_extends (add_extends hextends hadd))
  obtain ⟨n, hn⟩ := exists_mapM_of_forall₂
    (fun hnm => planInput_refines (placeTree?_refines hnm)) hunfold
  exact add_tree hwalk hplan₂ hplanned hn htrees hadd ht₂ hagree

/-- The types of a tree are those of its node. -/
theorem HasTree.types {node : ShaderNode} (h : HasTree nodes index tree)
    (hnode : nodes[index]? = some node) :
    tree.inputs.map (·.type) = node.inputs.map (·.type) ∧ tree.type = node.type := by
  obtain ⟨node', depth, hnode', h⟩ := h.exists_node
  obtain rfl := Option.some.inj (hnode.symm.trans hnode')
  obtain ⟨ts, hts, rfl⟩ := Option.map_eq_some_iff.mp h
  refine ⟨?_, rfl⟩
  rw [← List.forall₂_eq_eq_eq, List.forall₂_map_left_iff, List.forall₂_map_right_iff]
  refine ((mapM_eq_some_iff.mp hts).imp fun input t ht => ?_).flip
  exact InputHasTree.name_eq ⟨depth, ht⟩ |>.2

theorem HasTree.conversionOf?_eq {node : ShaderNode} (h : HasTree nodes index tree)
    (hnode : nodes[index]? = some node) :
    conversionPlan? r place e tree =
      (conversionOf? r e (node.inputs.map (·.type)) node.type).map (.ofConversion place tree) := by
  obtain ⟨hinputs, htype⟩ := h.types hnode
  rw [conversionPlan?, hinputs, htype]

/-- The conversion that follows a node is planned alike for both. -/
theorem ofConversion_tree {node : ShaderNode} (hscope : ScopeTree nodes scope place.scope)
    (h : HasTree nodes index tree) (hnode : nodes[index]? = some node) (conversion : Element) :
    PlanTree nodes (.ofConversion scope node index conversion place.path)
      (.ofConversion place tree conversion) := by
  have htype := (h.types hnode).2
  refine ⟨hscope, ⟨rfl, rfl, fun name i hi => ?_, fun name hnone => ?_⟩, rfl, htype.symm,
    congrArg (· ++ conversionPath place.path) hscope.keyPrefix, rfl⟩
  · by_cases hin : "in" = name
    · simp only [Plan.ofConversion, Instance.connection?, Ordered.get?, hin, if_true] at hi
      refine ⟨tree, ?_, Option.some.inj hi ▸ h⟩
      simp only [TreePlan.ofConversion, Instance.connection?, Ordered.get?, hin, if_true]
    · simp [Plan.ofConversion, Instance.connection?, Ordered.get?, hin] at hi
  · by_cases hin : "in" = name
    · simp [Plan.ofConversion, Instance.connection?, Ordered.get?, hin] at hnone
    · simp [TreePlan.ofConversion, Instance.connection?, Ordered.get?, hin]

theorem conversion_tree (hwalk : WalkTrees r path walk) (hextends : WalkExtends walk)
    {index' : Nat} (hplace : Asked r path (.place place))
    (helement : r.document.element? place.path = some e)
    (hdef : r.document.nodeDefOfNode? e = some nodeDef)
    (hunfolds : (TreePlan.ofNode place e nodeDef).Unfolds r tree)
    (hscope : ScopeTree b.nodes scope place.scope) (htree : HasTree b.nodes index tree)
    (hstep : ConversionStep r walk scope e index place.path b index' b') (ht : Table r path b)
    (hagree : KeysAgree r path b') :
    Table r path b' ∧ ∃ tree', (∃ depth,
      convertedTree? r (placeTree? r depth) place e tree = some tree') ∧
        HasTree b'.nodes index' tree' := by
  unfold convertedTree?
  cases hstep with
  | missing hnode =>
    -- a node with a tree is there
    obtain ⟨node, depth, hsome, -⟩ := htree.exists_node
    cases hnode.symm.trans hsome
  | unneeded hnode hconversion =>
    rw [htree.conversionOf?_eq hnode, hconversion]
    exact ⟨ht, tree, ⟨0, rfl⟩, htree⟩
  | @needed node conversion _ _ hnode hconversion hplan =>
    have hplan' : conversionPlan? r place e tree = some (.ofConversion place tree conversion) := by
      rw [htree.conversionOf?_eq hnode, hconversion]
      rfl
    obtain ⟨depth, hdepth⟩ := hunfolds
    have hplanned := Planned.conversion hplace helement hdef hdepth hplan'
    rw [hplan']
    exact plan_tree hwalk hextends (ofConversion_tree hscope htree hnode conversion) hplanned hplan
      ht hagree

/-- An authored node is planned alike for both. -/
theorem ofNode_tree {isRoot : Bool} (hscope : ScopeTree nodes scope place.scope) :
    PlanTree nodes (.ofNode scope e nodeDef place.key place.path isRoot)
      (.ofNode place e nodeDef) :=
  ⟨hscope, ⟨rfl, rfl, nofun, fun _ _ => rfl⟩, rfl, rfl, rfl, rfl⟩

theorem element_tree (hwalk : WalkTrees r path walk) (hextends : WalkExtends walk) {isRoot : Bool}
    (hplace : Asked r path (.place place)) (helement : r.document.element? place.path = some e)
    (hscope : ScopeTree b.nodes scope place.scope)
    (hstep : ElementStep r walk scope e place.key place.path isRoot b index b')
    (ht : Table r path b) (hagree : KeysAgree r path b') :
    Table r path b' ∧ ∃ tree, (Task.place place).Unfolds r tree ∧ HasTree b'.nodes index tree := by
  cases hstep with
  | @defined nodeDef _ _ _ _ hdef hplan hconversion =>
    have hplanned := Planned.node hplace helement hdef
    have hagree₁ := hagree.of_extends (conversion_extends hextends hconversion)
    obtain ⟨ht₁, tree, ⟨n, hn⟩, htree⟩ :=
      plan_tree hwalk hextends (ofNode_tree hscope) hplanned hplan ht hagree₁
    have hscope₁ := hscope.grow (plan_extends hextends hplan).nodes
    obtain ⟨ht₂, tree', ⟨m, hm⟩, htree'⟩ := conversion_tree hwalk hextends hplace helement hdef
      ⟨n, hn⟩ hscope₁ htree hconversion ht₁ hagree
    refine ⟨ht₂, tree', ⟨max n m + 1, Option.bind_eq_some_iff.mpr ⟨e, helement, ?_⟩⟩, htree'⟩
    simp only [hdef]
    refine Option.bind_eq_some_iff.mpr ⟨tree, ?_, ?_⟩
    · exact planTree_refines (placeTree?_refines (Nat.le_max_left n m)) hn
    · exact convertedTree_refines (placeTree?_refines (Nat.le_max_right n m)) hm
  | @undefined name _ _ _ hdef _ hname hpush =>
    refine ⟨(ht.freshName hname).pushNode hpush, undefinedTree e place.path, ⟨1, ?_⟩, ?_⟩
    · refine Option.bind_eq_some_iff.mpr ⟨e, helement, ?_⟩
      rw [hdef]
    · have hnode : ∀ nodes, nodeTree? (treeAt? nodes 0) (undefinedNode e name place.path) =
          some (undefinedTree e place.path) := fun _ => rfl
      exact .push (hnode _) hpush

end Nodes

/-! ## The walk -/

theorem ScopeTree.keyOf_eq {nodes : List ShaderNode} {scope : Scope} {scope' : TreeScope}
    (h : ScopeTree nodes scope scope') (name : String) :
    scope.keyOf name = Place.key ⟨scope', name⟩ ∧
      scope.pathOf name = Place.path ⟨scope', name⟩ := by
  simp only [Scope.keyOf, Scope.pathOf, Place.key, Place.path, h.graph, h.keyPrefix, and_self]

theorem buildNodeWith_trees (hwalk : WalkTrees r path walk) (hextends : WalkExtends walk) :
    WalkTrees r path (buildNodeWith r walk) := by
  intro scope name isRoot b index b' hrun scope' hscope hasked ht hagree
  obtain ⟨hkey, hpath⟩ := hscope.keyOf_eq name
  cases buildNodeWith_ok hrun with
  | known hbuilt =>
    rw [hkey] at hbuilt
    exact ⟨ht, ht.answer hagree hasked hbuilt⟩
  | new _ _ hbegin helement hstep hend hrecord =>
    rw [hkey, hpath] at hstep
    rw [hpath] at helement
    rw [hkey] at hrecord
    have hscope₁ := hscope.grow (beginNode_extends hbegin).nodes
    -- the table is only asked for keys that are still recorded in the end
    have hagree₂ := hagree.of_extends ((endNode_extends hend).trans (recordBuilt_extends hrecord))
    obtain ⟨ht₂, tree, hunfolds, htree⟩ :=
      element_tree hwalk hextends hasked helement hscope₁ hstep (ht.beginNode hbegin) hagree₂
    have htree₃ := htree.grow (endNode_extends hend).nodes
    obtain ⟨ht', htree'⟩ := (ht₂.endNode hend).record hasked hunfolds htree₃ hrecord
    exact ⟨ht', tree, hunfolds, htree'⟩

theorem buildNode_trees (r : Request) (path : String) (depth : Nat) :
    WalkTrees r path (buildNode r depth) := by
  induction depth with
  | zero => exact fun _ _ _ _ _ _ hrun => absurd hrun throw_ok
  | succ depth ih => exact buildNodeWith_trees ih (buildNode_extends r depth)

/-- Nothing is authored around the element to be drawn. -/
theorem scope_tree (nodes : List ShaderNode) (graph : String) :
    ScopeTree nodes { graph } { graph } :=
  ⟨rfl, rfl, .none⟩

theorem ofShaderRef_tree (nodes : List ShaderNode) (e nodeDef : Element) (path : String) :
    PlanTree nodes (.ofShaderRef e nodeDef path) (.ofShaderRef e nodeDef path) :=
  ⟨scope_tree nodes "", ⟨rfl, rfl, nofun, fun _ _ => rfl⟩, rfl, rfl, rfl, rfl⟩

theorem root_tree (hwalk : WalkTrees r path walk) (hextends : WalkExtends walk)
    (hstep : RootStep r walk path b index b') (ht : Table r path b) (hagree : KeysAgree r path b') :
    Table r path b' ∧ ∃ tree, (∃ depth, elementTree? r depth path = some tree) ∧
      HasTree b'.nodes index tree := by
  have hstart : ∀ start, start? r.document path = some start → ∀ depth,
      elementTree? r depth path = start.tree? r (placeTree? r depth) := by
    intro start hstart depth
    rw [elementTree?, hstart, Option.bind_some]
  cases hstep with
  | @shaderRef e nodeDef _ _ helement hcategory hdef hplan =>
    have hplanned := start?_shaderRef helement hcategory hdef
    simp only [hstart _ hplanned]
    exact plan_tree hwalk hextends (ofShaderRef_tree _ e nodeDef path) (.start hplanned) hplan ht
      hagree
  | @output e graph name _ _ helement hcategory hgraph hname hrun =>
    have hplace := start?_output helement hcategory hgraph hname
    simp only [hstart _ hplace]
    exact hwalk hrun (scope_tree _ _) (.start hplace) ht hagree
  | @node e _ _ helement href houtput hrun =>
    have hplace := start?_node helement href houtput
    simp only [hstart _ hplace]
    exact hwalk hrun (scope_tree _ _) (.start hplace) ht hagree

/-- Sharing nodes is invisible: the graph unfolds to the plain unfolding of its element, and
whatever the plain unfolding asks for has its own tree under its key. -/
structure Transparent (r : Request) (path : String) (g : ShaderGraph) (b : Build) : Prop where
  root : ∃ tree depth, ∀ depth' ≥ depth, elementTree? r depth' path = some tree ∧
    treeAt? g.nodes depth' g.root = some tree
  shared : ∀ task, Asked r path task → ∀ index, Ordered.get? task.key b.built = some index →
    ∃ tree, task.Unfolds r tree ∧ HasTree g.nodes index tree

variable {depth : Nat} {g : ShaderGraph}

/-- If every answer of the table is right, the tasks for one key have one tree. -/
theorem Transparent.keysAgree (h : Transparent r path g b) : KeysAgree r path b := by
  intro task task' hasked hasked' hkey ⟨index, hbuilt⟩ tree hunfolds
  obtain ⟨tree₁, hunfolds₁, htree₁⟩ := h.shared task hasked index hbuilt
  obtain ⟨tree₂, hunfolds₂, htree₂⟩ := h.shared task' hasked' index (hkey ▸ hbuilt)
  rw [hunfolds.unique hunfolds₁, htree₁.unique htree₂]
  exact hunfolds₂

theorem KeysAgree.transparent {root : Nat} (hagree : KeysAgree r path b)
    (h : buildWithin r depth path = .ok (root, b)) :
    Transparent r path (b.graph path root) b := by
  have hempty : Table r path {} := fun key i hi => by cases hi
  obtain ⟨ht, tree, ⟨n, hn⟩, ⟨m, hm⟩⟩ := root_tree (buildNode_trees r path depth)
    (buildNode_extends r depth) (buildRoot_ok h) hempty hagree
  refine ⟨⟨tree, max n m, fun depth' hdepth => ⟨?_, ?_⟩⟩, fun task hasked index hbuilt => ?_⟩
  · exact elementTree?_mono (Nat.le_trans (Nat.le_max_left n m) hdepth) hn
  · exact treeAt?_refines List.prefix_rfl (Nat.le_trans (Nat.le_max_right n m) hdepth) hm
  · exact ht.answer hagree hasked hbuilt

/-- Sharing nodes is invisible exactly if the tasks for one key have one tree. -/
theorem transparent_iff (h : graphWithin r depth path = .ok g) :
    ∃ b, buildWithin r depth path = .ok (g.root, b) ∧ b.graph path g.root = g ∧
      (Transparent r path g b ↔ KeysAgree r path b) := by
  obtain ⟨⟨root, b⟩, hbuild, rfl⟩ := map_ok.mp h
  exact ⟨b, hbuild, rfl, fun htrans => htrans.keysAgree, fun hagree => hagree.transparent hbuild⟩

/-- The trees that the inputs of a tree take values from. -/
def NodeTree.sources (t : NodeTree) : List NodeTree :=
  t.inputs.filterMap fun input =>
    match input.origin with
    | .tree source => some source
    | _ => none

/-- A node `img` that reads a file, with the conversion of its color space implemented by a node
graph, and a node with a given name that the same graph stands for. -/
def Sample.conversion (name : String) : Request :=
  request
    [definition "mix" "color3" [input "a" "color3", input "b" "color3"],
      implementation "mix" "\x7b\x7ba\x7d\x7d",
      definition "image" "color3" [input "file" "filename"],
      implementation "image" "\x7b\x7bfile\x7d\x7d",
      definition "srgb_texture_to_lin_rec709_color3" "color3" [input "in" "color3"],
      { category := "nodegraph", name := "NG_convert"
        attributes := [("nodedef", "ND_srgb_texture_to_lin_rec709_color3")]
        children :=
          [node "mix" "result" "color3" [input "a" "color3" [("interfacename", "in")]],
            { category := "output", name := "out"
              attributes := [("type", "color3"), ("nodename", "result")] }] },
      node "mix" "top" "color3"
        [input "a" "color3" [("nodename", "img")],
          input "b" "color3" [("nodename", name)]],
      { category := "image", name := "img"
        attributes := [("type", "color3"), ("colorspace", "srgb_texture")] },
      node "srgb_texture_to_lin_rec709_color3" name "color3" []]

/-- A document in which the second node has the key of the conversion of the first one. -/
def Sample.sameKey : Request := conversion "img_colorspace"

theorem transparent_iff_sameKey : ∃ g, build Sample.sameKey "top" = .ok g ∧
    ∃ b, buildWithin Sample.sameKey (depthBound Sample.sameKey.document) "top" = .ok (g.root, b) ∧
      b.graph "top" g.root = g ∧
      (Transparent Sample.sameKey "top" g b ↔ KeysAgree Sample.sameKey "top" b) := by
  have heval : (build Sample.sameKey "top").toOption.map (·.root) = some 2 := by decide +kernel
  obtain ⟨g, hbuild, -⟩ := Sample.exists_ok_of_map heval
  exact ⟨g, hbuild, transparent_iff hbuild⟩

/-- What stands in the place of the node `img_colorspace` is connected to the node `img`. -/
theorem not_transparent_sameKey : ∃ g, build Sample.sameKey "top" = .ok g ∧
    ∀ b, ¬ Transparent Sample.sameKey "top" g b := by
  have heval : (build Sample.sameKey "top").toOption.map (fun g =>
      (treeAt? g.nodes 4 g.root).map fun t => t.sources.map (·.sources.length)) =
      some (some [1, 1]) := by decide +kernel
  have hplain : (elementTree? Sample.sameKey 4 "top").map
      (fun t => t.sources.map (·.sources.length)) = some [1, 0] := by decide +kernel
  obtain ⟨g, hbuild, hgraph⟩ := Sample.exists_ok_of_map heval
  refine ⟨g, hbuild, fun b htrans => ?_⟩
  obtain ⟨shared, hshared, hsources⟩ := Option.map_eq_some_iff.mp hgraph
  obtain ⟨plain, hunfolded, hsources'⟩ := Option.map_eq_some_iff.mp hplain
  obtain ⟨tree, depth, hdepth⟩ := htrans.root
  obtain ⟨htree, htree'⟩ := hdepth (max 4 depth) (Nat.le_max_right 4 depth)
  have hle : 4 ≤ max 4 depth := Nat.le_max_left 4 depth
  obtain rfl := Option.some.inj ((elementTree?_mono hle hunfolded).symm.trans htree)
  obtain rfl := Option.some.inj ((treeAt?_refines List.prefix_rfl hle hshared).symm.trans htree')
  rw [hsources] at hsources'
  cases hsources'

end MaterialViewer.Graph
