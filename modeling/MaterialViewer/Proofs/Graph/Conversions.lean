import MaterialViewer.Proofs.Graph.MissingNodes
import MaterialViewer.Proofs.Graph.PlainNames
import MaterialViewer.Proofs.Graph.Root

/-!
# Proofs: conversions between color spaces

A node that reads a file may have node graphs in its place, one within the other; the innermost one
ends in the node that does the reading. The builder looks for a conversion at each of these levels,
from the innermost to the outermost: it asks for the space that is declared for the element of the
level and for the types of the node that it has by then. So the first level at which a conversion is
found decides, and it decides alone unless what the conversion gives reads a file as well.

The node itself declares a space at the outermost level. A level further in for which nothing is
declared falls back to the space of the document, which so takes precedence over what the node
declares. A node without a node graph in its place has one level only, and is converted as it
declares.
-/

namespace MaterialViewer

/-- A conversion has the name that the two spaces and the type give. -/
theorem ColorSpace.transform?_name {d : Document} {source space : String} {type : ValueType}
    {target : Target} {nodeDef : Element}
    (h : transform? d source space type target = some nodeDef) :
    nodeDef.name = transformName source space type := by
  unfold transform? at h
  split at h
  · cases h
  · obtain ⟨hfound, -⟩ := Option.filter_eq_some_iff.mp h
    have hname := List.find?_some hfound
    exact of_decide_eq_true hname

namespace Graph

variable {r : Request} {path : String} {b : Build} {place : Place} {t t' t₁ tree : NodeTree}

/-! ## Levels -/

/-- An element on the way from a node to the one in its place that reads a file. -/
structure Level where
  /-- Where the element is. -/
  place : Place
  /-- The element. -/
  element : Element

/-- The conversion that the element of a level asks for after a tree. -/
def Level.conversion? (r : Request) (l : Level) (t : NodeTree) : Option TreePlan :=
  conversionPlan? r l.place l.element t

/-- The node at a place ends in a node without a node graph in its place, through levels from the
innermost to the outermost. -/
inductive EndsIn (r : Request) : Place → List Level → NodeTree → Prop
  | undefined {p : Place} {e : Element} (helement : r.document.element? p.path = some e)
      (hdef : r.document.nodeDefOfNode? e = none) : EndsIn r p [⟨p, e⟩] (undefinedTree e p.path)
  | single {p : Place} {e nodeDef : Element} {depth : Nat} {inputs : List (TreeInput NodeTree)}
      (helement : r.document.element? p.path = some e)
      (hdef : r.document.nodeDefOfNode? e = some nodeDef)
      (hinputs : (TreePlan.ofNode p e nodeDef).inputTrees? r (placeTree? r depth) = some inputs)
      (hnone : expansion? r nodeDef.name = none) :
      EndsIn r p [⟨p, e⟩] ((TreePlan.ofNode p e nodeDef).node r inputs)
  | inner {p : Place} {e nodeDef : Element} {depth : Nat} {inputs : List (TreeInput NodeTree)}
      {graph name : String} {levels : List Level} {node : NodeTree}
      (helement : r.document.element? p.path = some e)
      (hdef : r.document.nodeDefOfNode? e = some nodeDef)
      (hinputs : (TreePlan.ofNode p e nodeDef).inputTrees? r (placeTree? r depth) = some inputs)
      (hexpansion : expansion? r nodeDef.name = some (graph, name))
      (hinner : EndsIn r ((TreePlan.ofNode p e nodeDef).inner inputs graph name) levels node) :
      EndsIn r p (levels ++ [⟨p, e⟩]) node

/-- The conversions that are added level after level to a tree, and the tree with them. -/
inductive Converts (r : Request) : List Level → NodeTree → List TreePlan → NodeTree → Prop
  | done {t : NodeTree} : Converts r [] t [] t
  | unneeded {l : Level} {outer : List Level} {t t' : NodeTree} {plans : List TreePlan}
      (hnone : l.conversion? r t = none) (houter : Converts r outer t plans t') :
      Converts r (l :: outer) t plans t'
  | needed {l : Level} {outer : List Level} {t t₁ t' : NodeTree} {plan : TreePlan}
      {plans : List TreePlan} (hplan : l.conversion? r t = some plan)
      (hunfolds : plan.Unfolds r t₁) (houter : Converts r outer t₁ plans t') :
      Converts r (l :: outer) t (plan :: plans) t'

/-- The conversion that the innermost of the levels asks for that ask for one. -/
def firstConversion? (r : Request) (t : NodeTree) (levels : List Level) : Option TreePlan :=
  levels.findSome? (·.conversion? r t)

section Levels

variable {l : Level} {levels inner outer : List Level} {plan : TreePlan}
  {plans : List TreePlan} {node : NodeTree}

theorem Level.conversion?_eq_some :
    l.conversion? r t = some plan ↔
      ∃ nodeDef, conversionOf? r l.element (t.inputs.map (·.type)) t.type = some nodeDef ∧
        .ofConversion l.place t nodeDef = plan :=
  Option.map_eq_some_iff

/-- What reads no file is not converted. -/
theorem Level.conversion?_of_not_file (h : .filename ∉ t.inputs.map (·.type)) :
    l.conversion? r t = none := by
  rw [Level.conversion?, conversionPlan?, conversionOf?, if_neg (by simpa using h),
    Option.map_none]

/-- One more level further out is asked last. -/
theorem Converts.concat (h : Converts r levels t plans t₁)
    (hlast : (l.conversion? r t₁ = none ∧ t' = t₁) ∨
      ∃ plan, l.conversion? r t₁ = some plan ∧ plan.Unfolds r t') :
    ∃ plans', Converts r (levels ++ [l]) t plans' t' := by
  induction h with
  | done =>
    rcases hlast with ⟨hnone, rfl⟩ | ⟨plan, hplan, hunfolds⟩
    · exact ⟨_, .unneeded hnone .done⟩
    · exact ⟨_, .needed hplan hunfolds .done⟩
  | unneeded hnone _ ih =>
    obtain ⟨plans', h⟩ := ih hlast
    exact ⟨plans', .unneeded hnone h⟩
  | needed hplan hunfolds _ ih =>
    obtain ⟨plans', h⟩ := ih hlast
    exact ⟨_, .needed hplan hunfolds h⟩

/-- Without a first conversion there is none at all. -/
theorem Converts.of_none (h : Converts r levels t plans t')
    (hnone : firstConversion? r t levels = none) : plans = [] ∧ t' = t := by
  have hlevels := List.findSome?_eq_none_iff.mp hnone
  clear hnone
  induction h with
  | done => exact ⟨rfl, rfl⟩
  | unneeded _ _ ih => exact ih (List.forall_mem_cons.mp hlevels).2
  | needed hplan _ _ _ => cases hplan.symm.trans (List.forall_mem_cons.mp hlevels).1

/-- The first conversion is added first, and only the levels further out are asked again. -/
theorem Converts.of_first (h : Converts r (inner ++ l :: outer) t plans t')
    (hinner : ∀ k ∈ inner, k.conversion? r t = none) (hplan : l.conversion? r t = some plan) :
    ∃ t₁ rest, plans = plan :: rest ∧ plan.Unfolds r t₁ ∧ Converts r outer t₁ rest t' := by
  induction inner with
  | nil =>
    cases h with
    | unneeded hnone _ => cases hplan.symm.trans hnone
    | needed hplan' hunfolds houter =>
      obtain rfl := Option.some.inj (hplan.symm.trans hplan')
      exact ⟨_, _, rfl, hunfolds, houter⟩
  | cons k inner ih =>
    obtain ⟨hk, hinner⟩ := List.forall_mem_cons.mp hinner
    cases h with
    | unneeded _ houter => exact ih houter hinner
    | needed hplan' _ _ => cases hplan'.symm.trans hk

/-- If no conversion is added, no level asks for one. -/
theorem Converts.of_nil (h : Converts r levels t [] t') :
    ∀ l ∈ levels, l.conversion? r t = none := by
  generalize hplans : ([] : List TreePlan) = plans at h
  induction h with
  | done => exact nofun
  | unneeded hnone _ ih => exact List.forall_mem_cons.mpr ⟨hnone, ih hplans⟩
  | needed _ _ _ _ => cases hplans

/-- What is unfolded for the place of a node is the node in which it ends, with the conversions that
the levels ask for. -/
theorem EndsIn.converts (h : EndsIn r place levels node)
    (hunfolds : (Task.place place).Unfolds r tree) :
    ∃ plans, Converts r levels node plans tree := by
  induction h generalizing tree with
  | undefined helement hdef =>
    obtain rfl := unfolds_undefined hunfolds helement hdef
    exact ⟨[], .unneeded (Level.conversion?_of_not_file List.not_mem_nil) .done⟩
  | single helement hdef hinputs hnone =>
    obtain ⟨own, hown, hconversion⟩ := unfolds_defined hunfolds helement hdef
    cases hown.cases with
    | single hinputs' _ =>
      obtain rfl := inputTrees?_unique hinputs hinputs'
      exact Converts.done.concat hconversion
    | inner _ hexpansion _ => cases hnone.symm.trans hexpansion
  | inner helement hdef hinputs hexpansion _ ih =>
    obtain ⟨own, hown, hconversion⟩ := unfolds_defined hunfolds helement hdef
    cases hown.cases with
    | single _ hnone => cases hnone.symm.trans hexpansion
    | inner hinputs' hexpansion' htree =>
      obtain rfl := inputTrees?_unique hinputs hinputs'
      obtain ⟨rfl, rfl⟩ := Prod.mk.inj (Option.some.inj (hexpansion.symm.trans hexpansion'))
      obtain ⟨plans, hinner⟩ := ih htree
      exact hinner.concat hconversion

/-- Whatever is unfolded for a place, the node at the place ends in some node. -/
theorem exists_endsIn (hunfolds : (Task.place place).Unfolds r tree) :
    ∃ levels node, EndsIn r place levels node := by
  obtain ⟨depth, h⟩ := hunfolds
  induction depth generalizing place tree with
  | zero => cases h
  | succ depth ih =>
    obtain ⟨e, helement, h⟩ := Option.bind_eq_some_iff.mp h
    cases hdef : r.document.nodeDefOfNode? e with
    | none => exact ⟨_, _, .undefined helement hdef⟩
    | some nodeDef =>
      rw [hdef] at h
      obtain ⟨own, hown, -⟩ := Option.bind_eq_some_iff.mp h
      obtain ⟨inputs, hinputs, hown⟩ := Option.bind_eq_some_iff.mp hown
      cases hexpansion : expansion? r nodeDef.name with
      | none => exact ⟨_, _, .single helement hdef hinputs hexpansion⟩
      | some inner =>
        obtain ⟨graph, name⟩ := inner
        simp only [TreePlan.ofNode, hexpansion] at hown
        obtain ⟨levels, node, hinner⟩ := ih hown
        exact ⟨_, _, .inner helement hdef hinputs hexpansion hinner⟩

theorem EndsIn.levels_ne_nil (h : EndsIn r place levels node) : levels ≠ [] := by
  cases h with
  | undefined _ _ => exact List.cons_ne_nil _ _
  | single _ _ _ _ => exact List.cons_ne_nil _ _
  | inner _ _ _ _ _ => simp

/-- Without a node graph in its place a node has its own level only, and its own type. -/
theorem EndsIn.of_single {e nodeDef : Element} (h : EndsIn r place levels node)
    (helement : r.document.element? place.path = some e)
    (hdef : r.document.nodeDefOfNode? e = some nodeDef) (hnone : expansion? r nodeDef.name = none) :
    levels = [⟨place, e⟩] ∧ node.type = (TreePlan.ofNode place e nodeDef).type := by
  cases h with
  | undefined helement' hdef' =>
    obtain rfl := Option.some.inj (helement.symm.trans helement')
    cases hdef.symm.trans hdef'
  | single helement' hdef' _ _ =>
    obtain rfl := Option.some.inj (helement.symm.trans helement')
    obtain rfl := Option.some.inj (hdef.symm.trans hdef')
    exact ⟨rfl, rfl⟩
  | inner helement' hdef' _ hexpansion _ =>
    obtain rfl := Option.some.inj (helement.symm.trans helement')
    obtain rfl := Option.some.inj (hdef.symm.trans hdef')
    cases hnone.symm.trans hexpansion

end Levels

/-! ## Nodes that read files -/

/-- An authored node in a graph that reads a file, by itself or by the node in which it ends. -/
structure FileRead where
  /-- Where the node is authored. -/
  place : Place
  /-- The element of the node. -/
  element : Element
  /-- The definition of the node. -/
  nodeDef : Element
  /-- The levels at which the node is looked at, the last of them its own. -/
  levels : List Level
  /-- The node in which it ends. -/
  node : NodeTree
  /-- The index that the builder keeps for the node. -/
  index : Nat

namespace FileRead

/-- The type of the output of the node. -/
def type (n : FileRead) : ValueType := (TreePlan.ofNode n.place n.element n.nodeDef).type

/-- The conversion from the color space that is declared for the node. -/
def expected? (r : Request) (n : FileRead) : Option Element :=
  (ColorSpace.declared? r.document n.element).bind fun source =>
    ColorSpace.transform? r.document source r.options.colorSpace n.type r.options.target

/-- The node is one of those that are built for the element with a path. -/
structure In (n : FileRead) (r : Request) (path : String) (b : Build) : Prop where
  asked : Asked r path (.place n.place)
  element : r.document.element? n.place.path = some n.element
  nodeDef : r.document.nodeDefOfNode? n.element = some n.nodeDef
  built : Ordered.get? n.place.key b.built = some n.index
  endsIn : EndsIn r n.place n.levels n.node
  file : .filename ∈ n.node.inputs.map (·.type)

/-- What reads the node gets a tree: the inputs that refer to it, and what is drawn. -/
structure Delivers (n : FileRead) (r : Request) (path : String) (root : Nat) (b : Build)
    (tree : NodeTree) : Prop where
  node : HasTree b.nodes n.index tree
  input : ∀ p : TreePlan, Planned r path p → ∀ defInput ∈ p.nodeDef.valueElements,
    p.inst.connection? defInput.name = none → p.reference r.document defInput = .place n.place →
      p.InputUnfolds r defInput (treeInput defInput tree)
  drawn : start? r.document path = some (.place n.place) → HasTree b.nodes root tree

end FileRead

/-- The node at an index is made from a definition, and its input `in` is connected to a node with a
tree. -/
def ConnectsIn (nodes : List ShaderNode) (index : Nat) (nodeDef : String) (source : NodeTree) :
    Prop :=
  ∃ node, nodes[index]? = some node ∧ node.nodeDef = nodeDef ∧
    ∀ input ∈ node.inputs, input.name = "in" →
      ∃ i, input.binding = .connection i ∧ HasTree nodes i source

/-- Of the conversions that are added for a node there is exactly the one from the color space that
is declared for the node, and it reads the node; there is none if none is to be had. -/
inductive FileRead.ConvertsOnce (n : FileRead) (r : Request) (b : Build) : List TreePlan → Prop
  | unneeded (hexpected : n.expected? r = none) (hnode : HasTree b.nodes n.index n.node) :
      ConvertsOnce n r b []
  | needed {place : Place} {nodeDef : Element} {source : String} {tree : NodeTree}
      (hexpected : n.expected? r = some nodeDef)
      (hsource : ColorSpace.declared? r.document n.element = some source)
      (hname : nodeDef.name = ColorSpace.transformName source r.options.colorSpace n.type)
      (hunfolds : (TreePlan.ofConversion place n.node nodeDef).Unfolds r tree)
      (htree : HasTree b.nodes n.index tree)
      (hin : expansion? r nodeDef.name = none →
        ConnectsIn b.nodes n.index nodeDef.name n.node) :
      ConvertsOnce n r b [.ofConversion place n.node nodeDef]

/-- The innermost level that asks for a conversion asks for the one that the node declares, and what
it gives is not converted again further out. -/
structure FileRead.Agrees (n : FileRead) (r : Request) : Prop where
  first : (firstConversion? r n.node n.levels).map (·.nodeDef) = n.expected? r
  last : ∀ inner l outer plan tree, n.levels = inner ++ l :: outer →
    (∀ k ∈ inner, k.conversion? r n.node = none) → l.conversion? r n.node = some plan →
      plan.Unfolds r tree → ∀ k ∈ outer, k.conversion? r tree = none

/-! ## The inputs of a conversion -/

section Inputs

variable {nodes : List ShaderNode} {index : Nat} {p : TreePlan} {defInput conversion : Element}
  {trees : Place → Option NodeTree} {t : TreeInput NodeTree} {node : NodeTree}

theorem HasTree.nodeDef_eq (h : HasTree nodes index tree) :
    nodes[index]?.map (·.nodeDef) = some tree.nodeDef := by
  obtain ⟨node, depth, hnode, htree⟩ := h.exists_node
  obtain ⟨inputs, -, rfl⟩ := Option.map_eq_some_iff.mp htree
  rw [hnode, Option.map_some]

/-- What the input `in` of a conversion takes its value from. -/
theorem conversion_in (h : (TreePlan.ofConversion place node conversion).inputTree? r trees
    defInput = some t) (hname : t.name = "in") : t.origin = .tree node := by
  have hin : defInput.name = "in" := (inputTree?_declared h).1.symm.trans hname
  simp only [TreePlan.inputTree?, TreePlan.ofConversion, Instance.connection?, hin, Ordered.get?,
    if_true] at h
  rw [← Option.some.inj h]
  rfl

/-- A conversion without a node graph in its place is a node of the graph that reads its source. -/
theorem HasTree.connectsIn (h : HasTree nodes index tree)
    (hunfolds : (TreePlan.ofConversion place node conversion).Unfolds r tree)
    (hnone : expansion? r conversion.name = none) :
    ConnectsIn nodes index conversion.name node := by
  cases hunfolds.cases with
  | inner _ hexpansion _ => cases hnone.symm.trans hexpansion
  | @single _ ts hts _ =>
    obtain ⟨found, depth, hfound, htree⟩ := h.exists_node
    obtain ⟨inputs, hinputs, heq⟩ := Option.map_eq_some_iff.mp htree
    obtain ⟨-, -, hdef, -, rfl, -⟩ := NodeTree.mk.inj heq
    refine ⟨found, hfound, hdef, fun input hinput hname => ?_⟩
    obtain ⟨t, ht, hinput⟩ := (exists_of_forall₂ (mapM_eq_some_iff.mp hinputs)).1 input hinput
    obtain ⟨defInput, -, hdefInput⟩ := (exists_of_forall₂ (mapM_eq_some_iff.mp hts)).2 t ht
    obtain ⟨origin, horigin, rfl⟩ := Option.map_eq_some_iff.mp hinput
    obtain rfl : origin = .tree node := conversion_in hdefInput hname
    cases hbinding : input.binding with
    | connection i =>
      rw [hbinding] at horigin
      obtain ⟨source, hsource, hsame⟩ := Option.map_eq_some_iff.mp horigin
      exact ⟨i, rfl, depth, Origin.tree.inj hsame ▸ hsource⟩
    | uniform v => rw [hbinding] at horigin; cases horigin
    | constant v => rw [hbinding] at horigin; cases horigin
    | unbound => rw [hbinding] at horigin; cases horigin

end Inputs

/-! ## How often a node is converted -/

section FileRead

variable {n : FileRead} {plans : List TreePlan} {depth root : Nat}

theorem FileRead.exists_of_expected? {nodeDef : Element} (h : n.expected? r = some nodeDef) :
    ∃ source, ColorSpace.declared? r.document n.element = some source ∧
      nodeDef.name = ColorSpace.transformName source r.options.colorSpace n.type := by
  obtain ⟨source, hsource, htransform⟩ := Option.bind_eq_some_iff.mp h
  exact ⟨source, hsource, ColorSpace.transform?_name htransform⟩

theorem FileRead.ConvertsOnce.agrees (h : n.ConvertsOnce r b plans)
    (hconverts : Converts r n.levels n.node plans tree) : n.Agrees r := by
  cases h with
  | unneeded hexpected _ =>
    have hlevels := hconverts.of_nil
    refine ⟨?_, fun inner l outer plan tree hsplit _ hplan _ => ?_⟩
    · rw [hexpected, firstConversion?, List.findSome?_eq_none_iff.mpr hlevels, Option.map_none]
    · cases (hlevels l (hsplit ▸ by simp)).symm.trans hplan
  | @needed place nodeDef _ _ hexpected _ _ _ _ _ =>
    -- wherever the first conversion is asked for, it is the only one
    have hfirst : ∀ {inner l outer plan}, n.levels = inner ++ l :: outer →
        (∀ k ∈ inner, k.conversion? r n.node = none) → l.conversion? r n.node = some plan →
        plan.nodeDef = nodeDef ∧ ∀ tree, plan.Unfolds r tree →
          ∀ k ∈ outer, k.conversion? r tree = none := by
      intro inner l outer plan hsplit hinner hplan
      rw [hsplit] at hconverts
      obtain ⟨t₁, rest, hplans, ⟨i, hi⟩, houter⟩ := hconverts.of_first hinner hplan
      obtain ⟨rfl, rfl⟩ := List.cons.inj hplans
      refine ⟨rfl, fun tree ⟨j, hj⟩ => ?_⟩
      obtain rfl := planTree?_unique hi hj
      exact houter.of_nil
    refine ⟨?_, fun inner l outer plan tree hsplit hinner hplan hunfolds =>
      (hfirst hsplit hinner hplan).2 tree hunfolds⟩
    rw [hexpected]
    cases hplan : firstConversion? r n.node n.levels with
    | none => cases (hconverts.of_none hplan).1
    | some plan =>
      obtain ⟨inner, l, outer, hsplit, hlevel, hinner⟩ := List.findSome?_eq_some_iff.mp hplan
      exact congrArg some (hfirst hsplit hinner hlevel).1

theorem FileRead.Agrees.convertsOnce (h : n.Agrees r)
    (hconverts : Converts r n.levels n.node plans tree) (htree : HasTree b.nodes n.index tree) :
    n.ConvertsOnce r b plans := by
  have hexpected := h.first
  cases hplan : firstConversion? r n.node n.levels with
  | none =>
    rw [hplan] at hexpected
    obtain ⟨rfl, rfl⟩ := hconverts.of_none hplan
    exact .unneeded hexpected.symm htree
  | some plan =>
    rw [hplan] at hexpected
    obtain ⟨inner, l, outer, hsplit, hlevel, hinner⟩ := List.findSome?_eq_some_iff.mp hplan
    rw [hsplit] at hconverts
    obtain ⟨t₁, rest, rfl, hunfolds, houter⟩ := hconverts.of_first hinner hlevel
    have hnone := h.last inner l outer plan t₁ hsplit hinner hlevel hunfolds
    obtain ⟨rfl, rfl⟩ := houter.of_none (List.findSome?_eq_none_iff.mpr hnone)
    obtain ⟨nodeDef, -, rfl⟩ := Level.conversion?_eq_some.mp hlevel
    obtain ⟨source, hsource, hname⟩ := exists_of_expected? hexpected.symm
    exact .needed hexpected.symm hsource hname hunfolds htree (htree.connectsIn hunfolds)

/-- The levels ask for the conversion that the node declares if they declare the same space, and the
node in which it ends has the same type. -/
theorem FileRead.In.first_of_declared (hn : n.In r path b)
    (hdeclared : ∀ l ∈ n.levels, ColorSpace.declared? r.document l.element =
      ColorSpace.declared? r.document n.element) (htype : n.node.type = n.type) :
    (firstConversion? r n.node n.levels).map (·.nodeDef) = n.expected? r := by
  have hlevel : ∀ l ∈ n.levels,
      l.conversion? r n.node = (n.expected? r).map (.ofConversion l.place n.node) := by
    intro l hl
    rw [Level.conversion?, conversionPlan?, conversionOf?, if_pos (by simpa using hn.file),
      hdeclared l hl, htype, expected?]
  cases hlevels : n.levels with
  | nil => exact absurd hlevels hn.endsIn.levels_ne_nil
  | cons l outer =>
    rw [hlevels, List.forall_mem_cons] at hlevel
    rw [firstConversion?, List.findSome?_cons, hlevel.1]
    cases hexpected : n.expected? r with
    | some nodeDef => rfl
    | none =>
      rw [hexpected] at hlevel
      exact congrArg _ (List.findSome?_eq_none_iff.mpr hlevel.2)

/-- A node that reads the file itself is converted as it declares. -/
theorem FileRead.In.agrees_of_single (hn : n.In r path b)
    (hnone : expansion? r n.nodeDef.name = none) : n.Agrees r := by
  obtain ⟨hlevels, htype⟩ := hn.endsIn.of_single hn.element hn.nodeDef hnone
  refine ⟨hn.first_of_declared (by simp [hlevels]) htype, ?_⟩
  intro inner l outer plan tree hsplit _ _ _
  -- nothing is further out than the only level
  cases inner with
  | nil =>
    obtain ⟨-, rfl⟩ := List.cons.inj (hlevels.symm.trans hsplit)
    exact nofun
  | cons k inner =>
    have hrest := (List.cons.inj (hlevels.symm.trans hsplit)).2
    cases inner <;> cases hrest

/-- A node with node graphs in its place is converted as it declares if each level declares the same
space, the type is the same at the innermost one, and the conversion reads no file. -/
theorem FileRead.In.agrees_of_declared (hn : n.In r path b)
    (hdeclared : ∀ l ∈ n.levels, ColorSpace.declared? r.document l.element =
      ColorSpace.declared? r.document n.element) (htype : n.node.type = n.type)
    (hpure : ∀ l ∈ n.levels, ∀ plan tree, l.conversion? r n.node = some plan →
      plan.Unfolds r tree → .filename ∉ tree.inputs.map (·.type)) : n.Agrees r := by
  refine ⟨hn.first_of_declared hdeclared htype, ?_⟩
  intro inner l outer plan tree hsplit _ hplan hunfolds k _
  exact Level.conversion?_of_not_file (hpure l (hsplit ▸ by simp) plan tree hplan hunfolds)

/-- What reads the node gets what is unfolded for it. -/
theorem FileRead.In.delivers (hn : n.In r path b)
    (hbuild : buildWithin r depth path = .ok (root, b)) (hagree : KeysAgree r path b) :
    ∃ tree, (Task.place n.place).Unfolds r tree ∧ n.Delivers r path root b tree := by
  have htrans := hagree.transparent hbuild
  obtain ⟨tree, ⟨i, hi⟩, htree⟩ := htrans.shared _ hn.asked _ hn.built
  refine ⟨tree, ⟨i, hi⟩, htree, fun p _ defInput _ hadded href => ⟨i, ?_⟩, fun hstart => ?_⟩
  · simp only [TreePlan.inputTree?, hadded, href, hi, Option.map_some]
  · obtain ⟨drawn, j, hj⟩ := htrans.root
    obtain ⟨hdrawn, hroot⟩ := hj (max i j) (Nat.le_max_right i j)
    rw [elementTree?, hstart, Option.bind_some] at hdrawn
    have hsame := placeTree?_refines (Nat.le_max_left i j) hi
    obtain rfl := Option.some.inj (hsame.symm.trans hdrawn)
    exact ⟨_, hroot⟩

/-- A node that reads a file is converted level after level. It is converted exactly once, as it
declares, if and only if the innermost level that asks for a conversion asks for the one that the
node declares, and what that one gives is not converted again further out. -/
theorem fileRead_convertsOnce_iff (hbuild : buildWithin r depth path = .ok (root, b))
    (hagree : KeysAgree r path b) (hn : n.In r path b) :
    ∃ plans tree, Converts r n.levels n.node plans tree ∧ n.Delivers r path root b tree ∧
      (n.ConvertsOnce r b plans ↔ n.Agrees r) := by
  obtain ⟨tree, hunfolds, hdelivers⟩ := hn.delivers hbuild hagree
  obtain ⟨plans, hconverts⟩ := hn.endsIn.converts hunfolds
  exact ⟨plans, tree, hconverts, hdelivers, fun honce => honce.agrees hconverts,
    fun hagrees => hagrees.convertsOnce hconverts hdelivers.node⟩

end FileRead

namespace Sample

variable {index : Nat}

/-- The definition of a node with an input of type color3. -/
def colorDef (category name : String) : Element :=
  definition category "color3" [input name "color3"]

/-- The definition of a node that reads a file. -/
def fileDef (category : String) : Element :=
  definition category "color3" [input "file" "filename"]

/-- The node in the node graph that stands in the place of a decal. -/
def decalImage : Element :=
  node "image" "read" "color3" [input "file" "filename" [("interfacename", "file")]]

/-- A decal that declares a color space. -/
def decalNode (space : String) : Element :=
  { category := "decal", name := "dec", attributes := [("type", "color3"), ("colorspace", space)]
    children := [input "file" "filename" [("value", "a.png")]] }

/-- The consumer of the decal. -/
def decalTop : Element := node "mix" "top" "color3" [input "a" "color3" [("nodename", "dec")]]

/-- A document that declares a color space, with a decal that declares another one and has a node
graph in its place. -/
def decal (space : String) : Request where
  document := { root :=
    { category := Document.rootCategory, name := "", attributes := [("colorspace", "srgb_texture")]
      children :=
        [colorDef "mix" "a", implementation "mix" "\x7b\x7ba\x7d\x7d", fileDef "image",
          implementation "image" "\x7b\x7bfile\x7d\x7d",
          colorDef "srgb_texture_to_lin_rec709_color3" "in",
          implementation "srgb_texture_to_lin_rec709_color3" "\x7b\x7bin\x7d\x7d", fileDef "decal",
          { category := "nodegraph", name := "NG_decal", attributes := [("nodedef", "ND_decal")]
            children := [decalImage,
              { category := "output", name := "out"
                attributes := [("type", "color3"), ("nodename", "read")] }] },
          decalTop, decalNode space] } }
  options := {}
  registry := .builtin

/-- The input of the decal and of the node in its place. -/
def decalInput : TreeInput NodeTree := ⟨"file", .filename, .uniform, some (.filename "a.png")⟩

/-- The node in the place of the decal. -/
def decalPlace (space : String) : Place :=
  (TreePlan.ofNode ⟨{}, "dec"⟩ (decalNode space) (fileDef "decal")).inner [decalInput] "NG_decal"
    "read"

/-- The decal as a node that reads a file. -/
def decalRead (space : String) (index : Nat) : FileRead where
  place := ⟨{}, "dec"⟩
  element := decalNode space
  nodeDef := fileDef "decal"
  levels := [⟨decalPlace space, decalImage⟩, ⟨⟨{}, "dec"⟩, decalNode space⟩]
  node := (TreePlan.ofNode (decalPlace space) decalImage (fileDef "image")).node (decal space)
    [decalInput]
  index := index

/-- What is built for the consumer of the decal. -/
def buildDecal (space : String) : Except GenerationError (Nat × Build) :=
  buildWithin (decal space) (depthBound (decal space).document) "top"

theorem decalRead_in (space : String) (hbuilt : Ordered.get? "dec" b.built = some index) :
    (decalRead space index).In (decal space) "top" b := by
  have hplanned : Planned (decal space) "top"
      (.ofNode ⟨{}, "top"⟩ decalTop (colorDef "mix" "a")) := .node (.start rfl) rfl rfl
  have helement : (decal space).document.element? (Place.path ⟨{}, "dec"⟩) =
      some (decalNode space) := rfl
  have himage : (decal space).document.element? (decalPlace space).path = some decalImage :=
    Document.element?_joinPath (show '/' ∉ "read".toList by decide) (by decide) "NG_decal"
  have hinput : (TreePlan.ofNode ⟨{}, "dec"⟩ (decalNode space) (fileDef "decal")).inputTrees?
      (decal space) (placeTree? (decal space) 0) = some [decalInput] := rfl
  have hinner : (TreePlan.ofNode (decalPlace space) decalImage (fileDef "image")).inputTrees?
      (decal space) (placeTree? (decal space) 0) = some [decalInput] := rfl
  exact
    { asked := .input hplanned (List.mem_singleton.mpr rfl) rfl rfl
      element := helement
      nodeDef := rfl
      built := hbuilt
      endsIn := .inner helement rfl hinput rfl (.single himage rfl hinner rfl)
      file := List.mem_singleton.mpr rfl }

end Sample

/-- A decal that declares the space of the document. -/
theorem fileRead_convertsOnce_iff_decal : ∃ root b,
    Sample.buildDecal "srgb_texture" = .ok (root, b) ∧
    KeysAgree (Sample.decal "srgb_texture") "top" b ∧
    (Sample.decalRead "srgb_texture" 1).In (Sample.decal "srgb_texture") "top" b ∧
    ∃ plans tree, Converts (Sample.decal "srgb_texture") (Sample.decalRead "srgb_texture" 1).levels
        (Sample.decalRead "srgb_texture" 1).node plans tree ∧
      (Sample.decalRead "srgb_texture" 1).Delivers (Sample.decal "srgb_texture") "top" root b tree ∧
      ((Sample.decalRead "srgb_texture" 1).ConvertsOnce (Sample.decal "srgb_texture") b plans ↔
        (Sample.decalRead "srgb_texture" 1).Agrees (Sample.decal "srgb_texture")) := by
  have heval : (Sample.buildDecal "srgb_texture").toOption.map
      (fun built => Ordered.get? "dec" built.2.built) = some (some 1) := by decide +kernel
  have hnames : PlainNames (Sample.decal "srgb_texture").document "top" := by
    refine ⟨?_, ?_, ?_, ?_, ?_, ?_, ?_⟩ <;> decide +kernel
  obtain ⟨⟨root, b⟩, hbuild, hbuilt⟩ := Sample.exists_ok_of_map heval
  have hagree : KeysAgree (Sample.decal "srgb_texture") "top" b := keysAgree_of_plainNames hnames
  have hread := Sample.decalRead_in "srgb_texture" hbuilt
  exact ⟨root, b, hbuild, hagree, hread, fileRead_convertsOnce_iff hbuild hagree hread⟩

/-- A decal that declares the space of the shading is converted from the space of the document. -/
theorem not_convertsOnce_decal : ∃ root b,
    Sample.buildDecal "lin_rec709" = .ok (root, b) ∧
    (Sample.decalRead "lin_rec709" 1).In (Sample.decal "lin_rec709") "top" b ∧
    (Sample.decalRead "lin_rec709" 1).expected? (Sample.decal "lin_rec709") = none ∧
    ∀ plans,
      ¬ (Sample.decalRead "lin_rec709" 1).ConvertsOnce (Sample.decal "lin_rec709") b plans := by
  have heval : (Sample.buildDecal "lin_rec709").toOption.map (fun built =>
        (Ordered.get? "dec" built.2.built, built.2.nodes[1]?.map (·.nodeDef))) =
      some (some 1, some "ND_srgb_texture_to_lin_rec709_color3") := by decide +kernel
  have hexpected : (Sample.decalRead "lin_rec709" 1).expected? (Sample.decal "lin_rec709") = none :=
    rfl
  obtain ⟨⟨root, b⟩, hbuild, hfacts⟩ := Sample.exists_ok_of_map heval
  obtain ⟨hbuilt, hdef⟩ := Prod.mk.inj hfacts
  have hread := Sample.decalRead_in "lin_rec709" hbuilt
  refine ⟨root, b, hbuild, hread, hexpected, fun plans honce => ?_⟩
  cases honce with
  | unneeded _ hnode =>
    -- the node at the index is the conversion, not the image
    have hsame := hnode.nodeDef_eq.symm.trans hdef
    exact absurd (Option.some.inj hsame) (by decide)
  | needed hneeded _ _ _ _ _ => cases hexpected.symm.trans hneeded

end Graph

end MaterialViewer
