import Mathlib.Data.List.Nodup
import Mathlib.Order.Nat
import MaterialViewer.Proofs.Graph.FreshName
import MaterialViewer.Proofs.Graph.Steps

/-!
# Proofs: what building a graph preserves

Every part of the builder only adds to the build: nodes and names at the end, and what is new has a
name that was not taken before. It keeps the build sound: each node takes its values from earlier
nodes and from registered parameters, no two nodes have one name, and all names are identifiers.

The inputs of a node are built while the name of the node is taken but the node is not there yet.
Meanwhile new parameters belong to new nodes or to this one, its owner.
-/

namespace MaterialViewer.Graph

/-- An input takes its value from one of the first `count` nodes, from a parameter of its value, or
from neither. -/
structure Sourced (parameters : List Parameter) (count : Nat) (input : ShaderInput) : Prop where
  node : ∀ i, input.binding = .connection i → i < count
  parameter : ∀ v, input.binding = .uniform v →
    ∃ p ∈ parameters, p.uniformName = v ∧ p.value? = input.value?

/-- What holds of a build at all times. -/
structure Sound (b : Build) : Prop where
  built_lt : ∀ key i, Ordered.get? key b.built = some i → i < b.nodes.length
  sourced : ∀ j node, b.nodes[j]? = some node → ∀ input ∈ node.inputs, Sourced b.parameters j input
  nodup : (b.nodes.map (·.name)).Nodup
  node_named : ∀ node ∈ b.nodes, node.name ∈ b.names
  parameter_named : ∀ p ∈ b.parameters, p.nodeName ∈ b.names
  parameter_path : ∀ p ∈ b.parameters, ∀ q ∈ b.parameters, p.nodeName = q.nodeName →
    p.nodePath = q.nodePath
  node_path : ∀ p ∈ b.parameters, ∀ node ∈ b.nodes, p.nodeName = node.name → p.nodePath = node.path
  identifier : ∀ name ∈ b.names, ∀ c ∈ name.toList, Glsl.isIdentifierChar c = true

/-- What a part of the builder does to a build. New parameters belong to new nodes or satisfy
`own`. -/
structure Grows (own : Parameter → Prop) (b b' : Build) : Prop where
  nodes : b.nodes <+: b'.nodes
  names : b.names ⊆ b'.names
  parameters : b.parameters ⊆ b'.parameters
  new_node : ∀ node ∈ b'.nodes, node ∈ b.nodes ∨ node.name ∉ b.names
  new_parameter : ∀ p ∈ b'.parameters, p ∈ b.parameters ∨ p.nodeName ∉ b.names ∨ own p

/-- No parameter: there is no owner. -/
def noOwner : Parameter → Prop := fun _ => False

/-- The parameters of the node with a name and a path. -/
def ownedBy (name path : String) : Parameter → Prop :=
  fun p => p.nodeName = name ∧ p.nodePath = path

/-- The inputs that stand for the interface of a scope have sources in the build. -/
def ScopeSourced (scope : Scope) (b : Build) : Prop :=
  ∀ inputs, scope.interface? = some inputs → ∀ input ∈ inputs,
    Sourced b.parameters b.nodes.length input

/-- What an instance is connected to is in the build. -/
def InstanceSourced (inst : Instance Nat) (b : Build) : Prop :=
  ∀ name i, inst.connection? name = some i → i < b.nodes.length

/-- All parameters of a node with a name have one path. -/
def OnePath (name path : String) (b : Build) : Prop :=
  ∀ p ∈ b.parameters, p.nodeName = name → p.nodePath = path

/-- The node with a name and a path is being built: its name is taken, but not by another node. -/
structure Owner (name path : String) (b : Build) : Prop where
  named : name ∈ b.names
  onePath : OnePath name path b
  unbuilt : ∀ node ∈ b.nodes, node.name ≠ name

/-- The result of a part of the builder that finds or builds a node. -/
structure Outcome (b : Build) (index : Nat) (b' : Build) : Prop where
  sound : Sound b'
  grows : Grows noOwner b b'
  lt : index < b'.nodes.length

/-- A name that nothing had in `b` is taken in `b'`, and nothing has it yet. -/
structure NameTaken (b : Build) (name : String) (b' : Build) : Prop where
  sound : Sound b'
  fresh : name ∉ b.names
  taken : name ∈ b'.names
  node_ne : ∀ node ∈ b'.nodes, node.name ≠ name
  parameter_ne : ∀ p ∈ b'.parameters, p.nodeName ≠ name
  grows : Grows noOwner b b'

variable {own : Parameter → Prop} {b b₁ b₂ b' : Build} {index : Nat} {r : Request} {walk : Walk}
  {scope : Scope}

/-! ## Growing -/

theorem Sourced.mono {ps ps' : List Parameter} {n n' : Nat} {input : ShaderInput}
    (h : Sourced ps n input) (hps : ps ⊆ ps') (hn : n ≤ n') : Sourced ps' n' input := by
  refine ⟨fun i hi => (h.node i hi).trans_le hn, fun v hv => ?_⟩
  obtain ⟨p, hp, hpv⟩ := h.parameter v hv
  exact ⟨p, hps hp, hpv⟩

theorem Sourced.congr {ps : List Parameter} {n : Nat} {input input' : ShaderInput}
    (h : Sourced ps n input) (hb : input'.binding = input.binding)
    (hv : input'.value? = input.value?) : Sourced ps n input' :=
  ⟨fun i hi => h.node i (hb ▸ hi), fun v hi => hv ▸ h.parameter v (hb ▸ hi)⟩

theorem Sourced.of_connection {ps : List Parameter} {n : Nat} {input : ShaderInput}
    (hb : input.binding = .connection index) (hlt : index < n) : Sourced ps n input := by
  refine ⟨fun i hi => ?_, fun v hv => ?_⟩
  · rw [hb] at hi
    exact InputBinding.connection.inj hi ▸ hlt
  · rw [hb] at hv
    cases hv

theorem Grows.refl (own : Parameter → Prop) (b : Build) : Grows own b b :=
  ⟨List.prefix_rfl, fun _ h => h, fun _ h => h, fun _ h => .inl h, fun _ h => .inl h⟩

theorem Grows.trans (h₁ : Grows own b b₁) (h₂ : Grows own b₁ b₂) : Grows own b b₂ := by
  refine ⟨h₁.nodes.trans h₂.nodes, List.Subset.trans h₁.names h₂.names,
    List.Subset.trans h₁.parameters h₂.parameters, ?_, ?_⟩
  · intro node hnode
    rcases h₂.new_node node hnode with hold | hnew
    · exact h₁.new_node node hold
    · exact .inr fun hin => hnew (h₁.names hin)
  · intro p hp
    rcases h₂.new_parameter p hp with hold | hnew | hown
    · exact h₁.new_parameter p hold
    · exact .inr (.inl fun hin => hnew (h₁.names hin))
    · exact .inr (.inr hown)

theorem Grows.mono {own' : Parameter → Prop} (h : Grows own b b')
    (hown : ∀ p, own p → p.nodeName ∉ b.names ∨ own' p) : Grows own' b b' := by
  refine { h with new_parameter := fun p hp => ?_ }
  rcases h.new_parameter p hp with hold | hnew | ho
  · exact .inl hold
  · exact .inr (.inl hnew)
  · exact .inr (hown p ho)

theorem Grows.weaken (h : Grows noOwner b b') : Grows own b b' :=
  h.mono fun _ hp => hp.elim

theorem Grows.length_le (h : Grows own b b') : b.nodes.length ≤ b'.nodes.length :=
  h.nodes.length_le

theorem Sourced.grow {input : ShaderInput} (h : Sourced b.parameters b.nodes.length input)
    (hg : Grows own b b') : Sourced b'.parameters b'.nodes.length input :=
  h.mono hg.parameters hg.length_le

theorem ScopeSourced.grow (h : ScopeSourced scope b) (hg : Grows own b b') :
    ScopeSourced scope b' :=
  fun inputs hi input hin => (h inputs hi input hin).grow hg

theorem InstanceSourced.grow {inst : Instance Nat} (h : InstanceSourced inst b)
    (hg : Grows own b b') : InstanceSourced inst b' :=
  fun name i hi => (h name i hi).trans_le hg.length_le

theorem Owner.grow {name path : String} (h : Owner name path b)
    (hg : Grows (ownedBy name path) b b') : Owner name path b' := by
  refine ⟨hg.names h.named, fun p hp heq => ?_, fun node hnode => ?_⟩
  · rcases hg.new_parameter p hp with hold | hnew | hown
    · exact h.onePath p hold heq
    · exact absurd (heq ▸ h.named) hnew
    · exact hown.2
  · rcases hg.new_node node hnode with hold | hnew
    · exact h.unbuilt node hold
    · exact fun heq => hnew (heq ▸ h.named)

/-! ## Changes of the build -/

theorem freshName_taken {base name : String} (hname : freshName base b = .ok (name, b'))
    (h : Sound b) : NameTaken b name b' := by
  obtain ⟨rfl, rfl⟩ := freshName_ok.mp hname
  have hgrow : b.names ⊆ b.names ++ [FreshName.fresh b.names base] :=
    List.subset_append_left _ _
  have hfresh := FreshName.fresh_not_mem b.names base
  exact
    { sound := ⟨h.built_lt, h.sourced, h.nodup, fun n hn => hgrow (h.node_named n hn),
        fun p hp => hgrow (h.parameter_named p hp), h.parameter_path, h.node_path, fun n hn => by
          rcases List.mem_append.mp hn with hn | hn
          · exact h.identifier n hn
          · rw [List.mem_singleton.mp hn]
            exact fun _ => FreshName.isIdentifierChar_of_mem_fresh⟩
      fresh := hfresh
      taken := List.mem_append_right _ (List.mem_singleton_self _)
      node_ne := fun n hn heq => hfresh (heq ▸ h.node_named n hn)
      parameter_ne := fun p hp heq => hfresh (heq ▸ h.parameter_named p hp)
      grows := ⟨List.prefix_rfl, hgrow, fun _ hp => hp, fun _ hn => .inl hn, fun _ hp => .inl hp⟩ }

theorem pushNode_sound {node : ShaderNode} (hpush : pushNode node b = .ok (index, b'))
    (h : Sound b) (hinputs : ∀ input ∈ node.inputs, Sourced b.parameters b.nodes.length input)
    (hname : node.name ∈ b.names) (hnew : ∀ n ∈ b.nodes, n.name ≠ node.name)
    (hpath : OnePath node.name node.path b) : Sound b' ∧ index < b'.nodes.length := by
  obtain ⟨rfl, rfl⟩ := pushNode_ok.mp hpush
  refine ⟨⟨?_, ?_, ?_, ?_, h.parameter_named, h.parameter_path, ?_, h.identifier⟩, by simp⟩
  · intro key i hi
    have := h.built_lt key i hi
    simp only [List.length_append]
    omega
  · intro j n hj
    change (b.nodes ++ [node])[j]? = some n at hj
    by_cases hlt : j < b.nodes.length
    · rw [List.getElem?_append_left hlt] at hj
      exact h.sourced j n hj
    · rw [List.getElem?_append_right (not_lt.mp hlt), List.getElem?_singleton] at hj
      obtain ⟨h₀, hn⟩ := Option.ite_none_right_eq_some.mp hj
      obtain rfl := Option.some.inj hn
      rw [show j = b.nodes.length by omega]
      exact hinputs
  · show ((b.nodes ++ [node]).map (·.name)).Nodup
    rw [List.map_append, List.map_singleton, ← List.concat_eq_append]
    refine h.nodup.concat fun hmem => ?_
    obtain ⟨n, hn, heq⟩ := List.mem_map.mp hmem
    exact hnew n hn heq
  · intro n hn
    rcases List.mem_append.mp hn with hn | hn
    · exact h.node_named n hn
    · exact List.mem_singleton.mp hn ▸ hname
  · intro p hp n hn heq
    rcases List.mem_append.mp hn with hn | hn
    · exact h.node_path p hp n hn heq
    · rw [List.mem_singleton.mp hn] at heq ⊢
      exact hpath p hp heq

theorem Grows.push {node : ShaderNode} (hg : Grows own b b₁) (hnew : node.name ∉ b.names)
    (hpush : pushNode node b₁ = .ok (index, b')) : Grows own b b' := by
  obtain ⟨rfl, rfl⟩ := pushNode_ok.mp hpush
  refine { hg with nodes := hg.nodes.trans (List.prefix_append _ _), new_node := ?_ }
  intro n hn
  rcases List.mem_append.mp hn with hn | hn
  · exact hg.new_node n hn
  · exact .inr (List.mem_singleton.mp hn ▸ hnew)

/-- Before the name was taken, its owner was new as well. -/
theorem NameTaken.grows_trans {name path : String} (ht : NameTaken b name b₁)
    (hg : Grows (ownedBy name path) b₁ b₂) : Grows noOwner b b₂ :=
  (ht.grows.weaken.trans hg).mono fun _ hp => .inl fun hin => ht.fresh (hp.1 ▸ hin)

/-- A name that was just taken has an owner and nothing else. -/
theorem NameTaken.owner {name : String} (ht : NameTaken b name b₁) (path : String) :
    Owner name path b₁ :=
  ⟨ht.taken, fun p hp heq => absurd heq (ht.parameter_ne p hp), ht.node_ne⟩

/-- Adding the node whose name was taken. -/
theorem NameTaken.push {node : ShaderNode} (ht : NameTaken b node.name b₁)
    (hg : Grows (ownedBy node.name node.path) b₁ b₂) (h : Sound b₂)
    (hinputs : ∀ input ∈ node.inputs, Sourced b₂.parameters b₂.nodes.length input)
    (hpush : pushNode node b₂ = .ok (index, b')) : Outcome b index b' := by
  obtain ⟨hnamed, hpath, hne⟩ := (ht.owner node.path).grow hg
  obtain ⟨hsound, hlt⟩ := pushNode_sound hpush h hinputs hnamed hne hpath
  exact ⟨hsound, (ht.grows_trans hg).push ht.fresh hpush, hlt⟩

/-- The keys of the nodes in progress are no part of what is preserved. -/
theorem beginNode_sound {key : String} (hbegin : beginNode key b = .ok ((), b')) (h : Sound b) :
    Sound b' ∧ Grows noOwner b b' := by
  obtain rfl := beginNode_ok.mp hbegin
  exact ⟨⟨h.built_lt, h.sourced, h.nodup, h.node_named, h.parameter_named, h.parameter_path,
      h.node_path, h.identifier⟩,
    ⟨List.prefix_rfl, fun _ hn => hn, fun _ hp => hp, fun _ hn => .inl hn, fun _ hp => .inl hp⟩⟩

theorem Outcome.endNode {key : String} (h : Outcome b index b₁)
    (hend : endNode key b₁ = .ok ((), b')) : Outcome b index b' := by
  obtain rfl := endNode_ok.mp hend
  have hs := h.sound
  have hg := h.grows
  exact
    ⟨⟨hs.built_lt, hs.sourced, hs.nodup, hs.node_named, hs.parameter_named, hs.parameter_path,
        hs.node_path, hs.identifier⟩,
      ⟨hg.nodes, hg.names, hg.parameters, hg.new_node, hg.new_parameter⟩, h.lt⟩

theorem Outcome.record {key : String} (h : Outcome b index b₁)
    (hrecord : recordBuilt key index b₁ = .ok ((), b')) : Outcome b index b' := by
  obtain rfl := recordBuilt_ok.mp hrecord
  have hs := h.sound
  have hg := h.grows
  refine ⟨⟨fun key' i hi => ?_, hs.sourced, hs.nodup, hs.node_named, hs.parameter_named,
      hs.parameter_path, hs.node_path, hs.identifier⟩,
    ⟨hg.nodes, hg.names, hg.parameters, hg.new_node, hg.new_parameter⟩, h.lt⟩
  by_cases hk : key' = key
  · rw [hk, Ordered.get?_put_self] at hi
    exact Option.some.inj hi ▸ h.lt
  · rw [Ordered.get?_put_of_ne hk] at hi
    exact hs.built_lt key' i hi

/-! ## Inputs -/

theorem classify_sound {p : Parameter} {isAuthored : Bool} {binding : InputBinding}
    (hstep : ClassifyStep r p isAuthored b binding b') (h : Sound b)
    (ho : Owner p.nodeName p.nodePath b) :
    Sound b' ∧ Grows (ownedBy p.nodeName p.nodePath) b b' ∧
      ∀ input : ShaderInput, input.binding = binding → input.value? = p.value? →
        Sourced b'.parameters b'.nodes.length input := by
  cases hstep with
  | fixed hfixed =>
    refine ⟨h, .refl _ b, fun input hb _ => ⟨fun i hi => ?_, fun v hv => ?_⟩⟩
    · rw [hb.symm.trans hi] at hfixed
      exact absurd hfixed fixedBinding?_ne_connection
    · rw [hb.symm.trans hv] at hfixed
      exact absurd hfixed fixedBinding?_ne_uniform
  | registered hfixed =>
    have hmem : p ∈ b.parameters ++ [p] := List.mem_append_right _ (List.mem_singleton_self p)
    refine ⟨⟨h.built_lt, ?_, h.nodup, h.node_named, ?_, ?_, ?_, h.identifier⟩, ?_, fun input hb hv => ?_⟩
    · intro j node hj input hi
      exact (h.sourced j node hj input hi).mono (List.subset_append_left _ _) le_rfl
    · intro q hq
      rcases List.mem_append.mp hq with hq | hq
      · exact h.parameter_named q hq
      · exact List.mem_singleton.mp hq ▸ ho.named
    · intro q hq q' hq' heq
      rcases List.mem_append.mp hq with hq | hq
      · rcases List.mem_append.mp hq' with hq' | hq'
        · exact h.parameter_path q hq q' hq' heq
        · rw [List.mem_singleton.mp hq'] at heq ⊢
          exact ho.onePath q hq heq
      · rw [List.mem_singleton.mp hq] at heq ⊢
        rcases List.mem_append.mp hq' with hq' | hq'
        · exact (ho.onePath q' hq' heq.symm).symm
        · rw [List.mem_singleton.mp hq']
    · intro q hq node hnode heq
      rcases List.mem_append.mp hq with hq | hq
      · exact h.node_path q hq node hnode heq
      · rw [List.mem_singleton.mp hq] at heq
        exact absurd heq.symm (ho.unbuilt node hnode)
    · refine ⟨List.prefix_rfl, fun _ hn => hn, List.subset_append_left _ _, fun _ hn => .inl hn,
        fun q hq => ?_⟩
      rcases List.mem_append.mp hq with hq | hq
      · exact .inl hq
      · exact .inr (.inr (by rw [List.mem_singleton.mp hq]; exact ⟨rfl, rfl⟩))
    · refine ⟨fun i hi => ?_, fun v hv' => ⟨p, hmem, ?_, hv.symm⟩⟩
      · rw [hb] at hi
        cases hi
      · rw [hb] at hv'
        exact InputBinding.uniform.inj hv'

/-- The inputs of a node that reads a geometric property have no sources. -/
theorem geometricSource?_inputs {property : String} {source : ShaderNode}
    (h : geometricSource? r property = some source) {ps : List Parameter} {n : Nat} :
    ∀ input ∈ source.inputs, Sourced ps n input := by
  obtain ⟨⟨nodeDef, category, type, index?⟩, -, hsource⟩ := Option.bind_eq_some_iff.mp h
  obtain ⟨reader, -, rfl⟩ := Option.map_eq_some_iff.mp hsource
  intro input hinput
  obtain ⟨i, -, rfl⟩ := Option.map_eq_some_iff.mp (Option.mem_toList.mp hinput)
  refine ⟨fun j hj => ?_, fun v hv => ?_⟩
  · cases hj
  · cases hv

theorem geometry_outcome {property : String}
    (hstep : GeometryStep r property b (some index) b') (h : Sound b) : Outcome b index b' := by
  cases hstep with
  | known _ hbuilt => exact ⟨h, .refl _ b, h.built_lt _ _ hbuilt⟩
  | new hsource _ hname hpush hrecord =>
    have ht := freshName_taken hname h
    refine Outcome.record (ht.push (.refl _ _) ht.sound ?_ hpush) hrecord
    exact geometricSource?_inputs hsource

theorem ownInput_sound {inst : Instance Nat} {name path : String} {defInput : Element}
    {input : ShaderInput} (hstep : OwnInputStep r inst name path defInput b input b') (h : Sound b)
    (ho : Owner name path b) :
    Sound b' ∧ Grows (ownedBy name path) b b' ∧
      Sourced b'.parameters b'.nodes.length input := by
  cases hstep with
  | geometry hproperty hstep =>
    have ho := geometry_outcome hstep h
    exact ⟨ho.sound, ho.grows.weaken, .of_connection rfl ho.lt⟩
  | bound hproperty hstep =>
    obtain ⟨hs, hg, hinput⟩ := classify_sound hstep h ho
    exact ⟨hs, hg, hinput _ rfl rfl⟩

/-- What the walk is expected to do. -/
def WalkSound (walk : Walk) : Prop :=
  ∀ ⦃scope name isRoot b index b'⦄, walk scope name isRoot b = .ok (index, b') → Sound b →
    ScopeSourced scope b → Outcome b index b'

theorem follow_node_sourced {link : Link} {target : Scope} {name : String}
    (href : scope.follow link = .node target name) (hscope : ScopeSourced scope b) :
    ScopeSourced target b := by
  cases link with
  | node name' =>
    obtain ⟨rfl, -⟩ := Reference.node.inj href
    exact hscope
  | output graph name' =>
    obtain ⟨rfl, -⟩ := Reference.node.inj href
    intro inputs hinputs
    cases hinputs
  | interface name' =>
    simp only [Scope.follow] at href
    split at href <;> cases href
  | nothing => cases href

theorem follow_outer_sourced {link : Link} {outer : ShaderInput}
    (href : scope.follow link = .outer outer) (hscope : ScopeSourced scope b) :
    Sourced b.parameters b.nodes.length outer := by
  cases link with
  | node name => cases href
  | output graph name => cases href
  | interface name =>
    simp only [Scope.follow] at href
    split at href
    · rename_i input hinput
      obtain rfl := Reference.outer.inj href
      obtain ⟨inputs, hinputs, hfind⟩ := Option.bind_eq_some_iff.mp hinput
      exact hscope inputs hinputs _ (List.mem_of_find?_eq_some hfind)
    · cases href
  | nothing => cases href

theorem input_sound (hwalk : WalkSound walk) {inst : Instance Nat} {name path : String}
    {defInput : Element} {input : ShaderInput}
    (hstep : InputStep r walk scope inst name path defInput b input b') (h : Sound b)
    (hscope : ScopeSourced scope b) (hinst : InstanceSourced inst b) (ho : Owner name path b) :
    Sound b' ∧ Grows (ownedBy name path) b b' ∧
      Sourced b'.parameters b'.nodes.length input := by
  cases hstep with
  | added hadded => exact ⟨h, .refl _ b, .of_connection rfl (hinst _ _ hadded)⟩
  | node _ href hrun =>
    have hout := hwalk hrun h (follow_node_sourced href hscope)
    exact ⟨hout.sound, hout.grows.weaken, .of_connection rfl hout.lt⟩
  | outer _ href => exact ⟨h, .refl _ b, (follow_outer_sourced href hscope).congr rfl rfl⟩
  | own _ _ hstep => exact ownInput_sound hstep h ho

theorem inputs_sound (hwalk : WalkSound walk) {inst : Instance Nat} {name path : String}
    {defInputs : List Element} {inputs : List ShaderInput}
    (hstep : InputsStep r walk scope inst name path defInputs b inputs b') (h : Sound b)
    (hscope : ScopeSourced scope b) (hinst : InstanceSourced inst b) (ho : Owner name path b) :
    Sound b' ∧ Grows (ownedBy name path) b b' ∧
      ∀ input ∈ inputs, Sourced b'.parameters b'.nodes.length input := by
  induction hstep with
  | nil => exact ⟨h, .refl _ _, by simp⟩
  | cons hinput _ ih =>
    obtain ⟨h₁, hg₁, hsourced⟩ := input_sound hwalk hinput h hscope hinst ho
    obtain ⟨h₂, hg₂, hrest⟩ := ih h₁ (hscope.grow hg₁) (hinst.grow hg₁) (ho.grow hg₁)
    refine ⟨h₂, hg₁.trans hg₂, fun input hin => ?_⟩
    rcases List.mem_cons.mp hin with rfl | hin
    · exact hsourced.grow hg₂
    · exact hrest input hin

/-! ## Nodes -/

theorem innerScope_sourced {d : Draft} {graph : String}
    (h : ∀ input ∈ d.inputs, Sourced b.parameters b.nodes.length input) :
    ScopeSourced (d.innerScope graph) b := by
  intro inputs hinputs
  obtain rfl := Option.some.inj hinputs
  exact h

theorem plan_outcome (hwalk : WalkSound walk) {p : Plan} (hstep : PlanStep r walk p b index b')
    (h : Sound b) (hscope : ScopeSourced p.scope b) (hinst : InstanceSourced p.inst b) :
    Outcome b index b' := by
  obtain ⟨hname, hinputs, hadd⟩ := hstep
  have ht := freshName_taken hname h
  obtain ⟨h₂, hg₂, hsourced⟩ :=
    inputs_sound hwalk hinputs ht.sound (hscope.grow ht.grows) (hinst.grow ht.grows)
      (ht.owner p.path)
  cases hadd with
  | inner _ hrun =>
    have hout := hwalk hrun h₂ (innerScope_sourced hsourced)
    exact ⟨hout.sound, (ht.grows_trans hg₂).trans hout.grows, hout.lt⟩
  | single _ _ hpush => exact ht.push hg₂ h₂ hsourced hpush

theorem Outcome.trans {index' : Nat} (h₁ : Outcome b index b₁) (h₂ : Outcome b₁ index' b') :
    Outcome b index' b' :=
  ⟨h₂.sound, h₁.grows.trans h₂.grows, h₂.lt⟩

theorem conversion_outcome (hwalk : WalkSound walk) {e : Element} {path : String} {index' : Nat}
    (hstep : ConversionStep r walk scope e index path b index' b') (h : Sound b)
    (hscope : ScopeSourced scope b) (hlt : index < b.nodes.length) : Outcome b index' b' := by
  cases hstep with
  | missing _ => exact ⟨h, .refl _ b, hlt⟩
  | unneeded _ _ => exact ⟨h, .refl _ b, hlt⟩
  | needed _ _ hplan =>
    refine plan_outcome hwalk hplan h hscope ?_
    intro name i hi
    by_cases hin : "in" = name
    · simp only [Plan.ofConversion, Instance.connection?, Ordered.get?, hin, if_true] at hi
      exact Option.some.inj hi ▸ hlt
    · simp [Plan.ofConversion, Instance.connection?, Ordered.get?, hin] at hi

theorem element_outcome (hwalk : WalkSound walk) {e : Element} {key path : String} {isRoot : Bool}
    (hstep : ElementStep r walk scope e key path isRoot b index b') (h : Sound b)
    (hscope : ScopeSourced scope b) : Outcome b index b' := by
  cases hstep with
  | defined _ hplan hconversion =>
    have hout := plan_outcome hwalk hplan h hscope (fun name i hi => by cases hi)
    exact hout.trans
      (conversion_outcome hwalk hconversion hout.sound (hscope.grow hout.grows) hout.lt)
  | undefined _ _ hname hpush =>
    have ht := freshName_taken hname h
    exact ht.push (.refl _ _) ht.sound (by simp [undefinedNode]) hpush

theorem buildNodeWith_sound (hwalk : WalkSound walk) : WalkSound (buildNodeWith r walk) := by
  intro scope name isRoot b index b' hrun h hscope
  cases buildNodeWith_ok hrun with
  | known hbuilt => exact ⟨h, .refl _ b, h.built_lt _ _ hbuilt⟩
  | new _ _ hbegin _ hstep hend hrecord =>
    obtain ⟨hs, hg⟩ := beginNode_sound hbegin h
    have hout := element_outcome hwalk hstep hs (hscope.grow hg)
    have hout' : Outcome b index _ := ⟨hout.sound, hg.trans hout.grows, hout.lt⟩
    exact (hout'.endNode hend).record hrecord

theorem buildNode_sound (r : Request) (depth : Nat) : WalkSound (buildNode r depth) := by
  induction depth with
  | zero => exact fun _ _ _ _ _ _ hrun => absurd hrun throw_ok
  | succ depth ih => exact buildNodeWith_sound ih

theorem root_outcome (hwalk : WalkSound walk) {path : String}
    (hstep : RootStep r walk path b index b') (h : Sound b) : Outcome b index b' := by
  have hscope : ∀ scope : Scope, scope.interface? = none → ScopeSourced scope b := by
    intro scope hnone inputs hi
    rw [hnone] at hi
    cases hi
  cases hstep with
  | shaderRef _ _ _ hplan =>
    exact plan_outcome hwalk hplan h (hscope _ rfl) (fun name i hi => by cases hi)
  | output _ _ _ _ hrun => exact hwalk hrun h (hscope _ rfl)
  | node _ _ _ hrun => exact hwalk hrun h (hscope _ rfl)

theorem sound_empty : Sound {} :=
  ⟨by simp [Ordered.get?], by simp, by simp, by simp, by simp, by simp, by simp, by simp⟩

/-- What has been built in the end is sound, and the root is one of the nodes. -/
theorem buildWithin_sound {depth : Nat} {path : String} {root : Nat}
    (h : buildWithin r depth path = .ok (root, b)) : Sound b ∧ root < b.nodes.length := by
  have hout := root_outcome (buildNode_sound r depth) (buildRoot_ok h) sound_empty
  exact ⟨hout.sound, hout.lt⟩

end MaterialViewer.Graph
