import MaterialViewer.Graph.Build

/-!
# Proofs: the steps of building a graph

What a successful run of each part of the builder has done, one lemma for each part. The later
developments read the builder off these lemmas, so that a change of one part concerns one of them.
-/

namespace MaterialViewer.Graph

variable {α β : Type} {b b' : Build} {r : Request} {walk : Walk} {scope : Scope}

/-! ## Sequences -/

theorem bind_ok {m : BuildM α} {f : α → BuildM β} {c : β} :
    (m >>= f) b = .ok (c, b') ↔ ∃ a b₁, m b = .ok (a, b₁) ∧ f a b₁ = .ok (c, b') := by
  simp only [bind, StateT.bind, Except.bind]
  constructor
  · intro h
    split at h
    · cases h
    · rename_i v hv
      exact ⟨v.1, v.2, hv, h⟩
  · rintro ⟨a, b₁, h₁, h₂⟩
    rw [h₁]
    exact h₂

theorem bind_of_ok {m : BuildM α} {f : α → BuildM β} {a : α} {b₁ : Build}
    (h : m b = .ok (a, b₁)) : (m >>= f) b = f a b₁ := by
  simp only [bind, StateT.bind, h, Except.bind]

theorem bind_of_error {m : BuildM α} {f : α → BuildM β} {e : GenerationError}
    (h : m b = .error e) : (m >>= f) b = .error e := by
  simp only [bind, StateT.bind, h, Except.bind]

theorem ok_bind {ε : Type} {x : Except ε α} {f : α → Except ε β} {c : β} :
    (x >>= f) = .ok c ↔ ∃ a, x = .ok a ∧ f a = .ok c := by
  cases x with
  | error e => simp [bind, Except.bind]
  | ok a => simp [bind, Except.bind]

theorem map_ok {ε : Type} {x : Except ε α} {f : α → β} {c : β} :
    x.map f = .ok c ↔ ∃ a, x = .ok a ∧ f a = c := by
  cases x <;> simp [Except.map]

theorem pure_ok {a c : α} : (pure a : BuildM α) b = .ok (c, b') ↔ a = c ∧ b = b' := by
  show Except.ok (a, b) = Except.ok (c, b') ↔ _
  rw [Except.ok.injEq, Prod.mk.injEq]

theorem throw_ok {e : GenerationError} {c : α} : ¬ (throw e : BuildM α) b = .ok (c, b') := by
  show ¬ (Except.error e : Except GenerationError (α × Build)) = .ok (c, b')
  exact nofun

theorem get_ok {c : Build} : (get : BuildM Build) b = .ok (c, b') ↔ b = c ∧ b = b' := by
  show Except.ok (b, b) = Except.ok (c, b') ↔ _
  rw [Except.ok.injEq, Prod.mk.injEq]

theorem mapM_cons_ok {f : α → BuildM β} {x : α} {xs : List α} {ys : List β} :
    (x :: xs).mapM f b = .ok (ys, b') ↔
      ∃ y rest b₁, f x b = .ok (y, b₁) ∧ xs.mapM f b₁ = .ok (rest, b') ∧ ys = y :: rest := by
  simp only [List.mapM_cons, bind_ok, pure_ok]
  constructor
  · rintro ⟨y, b₁, h₁, rest, b₂, h₂, rfl, rfl⟩
    exact ⟨y, rest, b₁, h₁, h₂, rfl⟩
  · rintro ⟨y, rest, b₁, h₁, h₂, rfl⟩
    exact ⟨y, b₁, h₁, rest, b', h₂, rfl, rfl⟩

/-! ## Changes of the build -/

theorem modifyGet_ok {f : Build → α × Build} {c : α} :
    (modifyGet f : BuildM α) b = .ok (c, b') ↔ (f b).1 = c ∧ (f b).2 = b' := by
  show Except.ok (f b) = Except.ok (c, b') ↔ _
  rw [Except.ok.injEq, Prod.ext_iff]

theorem freshName_ok {base name : String} :
    freshName base b = .ok (name, b') ↔
      FreshName.fresh b.names base = name ∧
        { b with names := b.names ++ [FreshName.fresh b.names base] } = b' :=
  modifyGet_ok

theorem pushNode_ok {node : ShaderNode} {index : Nat} :
    pushNode node b = .ok (index, b') ↔
      b.nodes.length = index ∧ { b with nodes := b.nodes ++ [node] } = b' :=
  modifyGet_ok

theorem addParameter_ok {p : Parameter} {binding : InputBinding} :
    addParameter p b = .ok (binding, b') ↔
      .uniform p.uniformName = binding ∧ { b with parameters := b.parameters ++ [p] } = b' :=
  modifyGet_ok

theorem modify_ok {f : Build → Build} {u : Unit} :
    (modify f : BuildM Unit) b = .ok (u, b') ↔ f b = b' := by
  show Except.ok ((), f b) = Except.ok (u, b') ↔ _
  rw [Except.ok.injEq, Prod.mk.injEq]
  exact and_iff_right rfl

theorem beginNode_ok {key : String} {u : Unit} :
    beginNode key b = .ok (u, b') ↔ { b with inProgress := key :: b.inProgress } = b' :=
  modify_ok

theorem endNode_ok {key : String} {u : Unit} :
    endNode key b = .ok (u, b') ↔ { b with inProgress := b.inProgress.erase key } = b' :=
  modify_ok

theorem recordBuilt_ok {key : String} {index : Nat} {u : Unit} :
    recordBuilt key index b = .ok (u, b') ↔
      { b with built := Ordered.put key index b.built } = b' :=
  modify_ok

/-! ## Inputs -/

theorem fixedBinding?_ne_connection {type : ValueType} {value? : Option Value} {isAuthored : Bool}
    {index : Nat} : fixedBinding? r type value? isAuthored ≠ some (.connection index) := by
  unfold fixedBinding?
  split
  · nofun
  · split
    · cases value? <;> nofun
    · nofun

theorem fixedBinding?_ne_uniform {type : ValueType} {value? : Option Value} {isAuthored : Bool}
    {v : String} : fixedBinding? r type value? isAuthored ≠ some (.uniform v) := by
  unfold fixedBinding?
  split
  · nofun
  · split
    · cases value? <;> nofun
    · nofun

/-- How an input that is not connected is bound. -/
inductive ClassifyStep (r : Request) (p : Parameter) (isAuthored : Bool) (b : Build) :
    InputBinding → Build → Prop
  | fixed {binding : InputBinding}
      (hfixed : fixedBinding? r p.type p.value? isAuthored = some binding) :
      ClassifyStep r p isAuthored b binding b
  | registered (hfixed : fixedBinding? r p.type p.value? isAuthored = none) :
      ClassifyStep r p isAuthored b (.uniform p.uniformName)
        { b with parameters := b.parameters ++ [p] }

theorem classify_ok {p : Parameter} {isAuthored : Bool} {binding : InputBinding}
    (h : classify r p.type p.value? isAuthored p.nodeName p.inputName p.nodePath b =
      .ok (binding, b')) : ClassifyStep r p isAuthored b binding b' := by
  unfold classify at h
  cases hfixed : fixedBinding? r p.type p.value? isAuthored with
  | some fixed =>
    rw [hfixed, pure_ok] at h
    obtain ⟨rfl, rfl⟩ := h
    exact .fixed hfixed
  | none =>
    rw [hfixed, addParameter_ok] at h
    obtain ⟨rfl, rfl⟩ := h
    exact .registered hfixed

/-- The node that reads a geometric property, but for its name; none if the property is unknown or
the registry has no implementation. -/
def geometricSource? (r : Request) (property : String) : Option ShaderNode :=
  (geometricProperty? property).bind fun (nodeDef, category, type, index?) =>
    (r.registry.find? nodeDef r.options.target).map fun reader =>
      { name := "", path := geometricKey property, category, nodeDef, type
        inputs := (index?.map indexInput).toList
        code? := some (.geometry reader) }

/-- How the node for a geometric property is found. -/
inductive GeometryStep (r : Request) (property : String) (b : Build) : Option Nat → Build → Prop
  | unknown (hsource : geometricSource? r property = none) : GeometryStep r property b none b
  | known {index : Nat} (hproperty : (geometricProperty? property).isSome)
      (hbuilt : Ordered.get? (geometricKey property) b.built = some index) :
      GeometryStep r property b (some index) b
  | new {source : ShaderNode} {name : String} {index : Nat} {b₁ b₂ b₃ : Build}
      (hsource : geometricSource? r property = some source)
      (hbuilt : Ordered.get? (geometricKey property) b.built = none)
      (hname : freshName ("geomprop_" ++ property) b = .ok (name, b₁))
      (hpush : pushNode { source with name } b₁ = .ok (index, b₂))
      (hrecord : recordBuilt (geometricKey property) index b₂ = .ok ((), b₃)) :
      GeometryStep r property b (some index) b₃

theorem geometricNode?_ok {property : String} {found? : Option Nat}
    (h : geometricNode? r property b = .ok (found?, b')) : GeometryStep r property b found? b' := by
  unfold geometricNode? at h
  cases hp : geometricProperty? property with
  | none =>
    rw [hp, pure_ok] at h
    obtain ⟨rfl, rfl⟩ := h
    exact .unknown (by simp [geometricSource?, hp])
  | some p =>
    obtain ⟨nodeDef, category, type, index?⟩ := p
    simp only [hp, bind_ok, get_ok] at h
    obtain ⟨_, _, ⟨rfl, rfl⟩, h⟩ := h
    cases hbuilt : Ordered.get? (geometricKey property) b.built with
    | some index =>
      rw [hbuilt, pure_ok] at h
      obtain ⟨rfl, rfl⟩ := h
      exact .known (by simp [hp]) hbuilt
    | none =>
      cases hreader : r.registry.find? nodeDef r.options.target with
      | none =>
        simp only [hbuilt, hreader, pure_ok] at h
        obtain ⟨rfl, rfl⟩ := h
        exact .unknown (by simp [geometricSource?, hp, hreader])
      | some reader =>
        simp only [hbuilt, hreader, bind_ok, pure_ok] at h
        obtain ⟨name, b₁, hname, index, b₂, hpush, _, _, hrecord, rfl, rfl⟩ := h
        have hsource : geometricSource? r property = some
            { name := "", path := geometricKey property, category, nodeDef, type
              inputs := (index?.map indexInput).toList
              code? := some (.geometry reader) } := by
          simp [geometricSource?, hp, hreader]
        exact .new hsource hbuilt hname hpush hrecord

/-- The parameter that an input of an instance asks for if it refers to nothing. -/
def Instance.parameter (inst : Instance Nat) (nodeName nodePath : String) (defInput : Element) :
    Parameter :=
  { nodeName, nodePath, inputName := defInput.name, type := .ofName defInput.typeName
    value? := inst.valueOrDefault? defInput }

/-- The input of an instance that is bound without a connection. -/
def Instance.boundInput (inst : Instance Nat) (defInput : Element) (binding : InputBinding) :
    ShaderInput :=
  ⟨defInput.name, .ofName defInput.typeName, binding, inst.valueOrDefault? defInput⟩

/-- The input of a definition that is connected to a node. -/
def connectedInput (defInput : Element) (index : Nat) : ShaderInput :=
  connected defInput.name (.ofName defInput.typeName) index

/-- How an input that refers to nothing is built. -/
inductive OwnInputStep (r : Request) (inst : Instance Nat) (nodeName nodePath : String)
    (defInput : Element) (b : Build) : ShaderInput → Build → Prop
  | geometry {property : String} {index : Nat} {b' : Build}
      (hproperty : inst.property? defInput = some property)
      (hstep : GeometryStep r property b (some index) b') :
      OwnInputStep r inst nodeName nodePath defInput b (connectedInput defInput index) b'
  | bound {binding : InputBinding} {b' : Build}
      (hproperty : ∀ property, inst.property? defInput = some property →
        geometricSource? r property = none)
      (hstep : ClassifyStep r (inst.parameter nodeName nodePath defInput)
        (inst.valueOf? defInput).isSome b binding b') :
      OwnInputStep r inst nodeName nodePath defInput b (inst.boundInput defInput binding) b'

theorem buildOwnInput_ok {inst : Instance Nat} {nodeName nodePath : String} {defInput : Element}
    {input : ShaderInput}
    (h : buildOwnInput r inst nodeName nodePath defInput b = .ok (input, b')) :
    OwnInputStep r inst nodeName nodePath defInput b input b' := by
  simp only [buildOwnInput, bind_ok] at h
  obtain ⟨found?, b₁, hfound, h⟩ := h
  cases hp : inst.property? defInput with
  | none =>
    rw [hp, Option.elim_none, pure_ok] at hfound
    obtain ⟨rfl, rfl⟩ := hfound
    simp only [bind_ok, pure_ok] at h
    obtain ⟨binding, _, hbinding, rfl, rfl⟩ := h
    exact .bound (by simp [hp]) (classify_ok hbinding)
  | some property =>
    rw [hp, Option.elim_some] at hfound
    have hstep := geometricNode?_ok hfound
    cases found? with
    | some index =>
      rw [pure_ok] at h
      obtain ⟨rfl, rfl⟩ := h
      exact .geometry hp hstep
    | none =>
      cases hstep with
      | unknown hsource =>
        simp only [bind_ok, pure_ok] at h
        obtain ⟨binding, _, hbinding, rfl, rfl⟩ := h
        refine .bound ?_ (classify_ok hbinding)
        intro property' hp'
        rw [hp] at hp'
        exact Option.some.inj hp' ▸ hsource

section Links

variable {d : Document} {graph : String} {authored : Element}

theorem linkOf_node {name : String} (h : linkOf d graph authored = .node name) :
    authored.filled? "nodename" = some name ∧
      (d.element? (Element.joinPath graph name)).isSome := by
  unfold linkOf at h
  split at h
  · rename_i name' hname
    split at h
    · rename_i hsome
      obtain rfl := Link.node.inj h
      exact ⟨hname, hsome⟩
    · cases h
  · split at h
    · split at h <;> cases h
    · split at h <;> cases h

theorem linkOf_output {graph' name : String} (h : linkOf d graph authored = .output graph' name) :
    authored.filled? "nodegraph" = some graph' ∧
      ∃ output, outputNode? d graph' output = some name := by
  unfold linkOf at h
  split at h
  · split at h <;> cases h
  · split at h
    · rename_i graph'' hgraph
      split at h
      · rename_i name' hname
        obtain ⟨rfl, rfl⟩ := Link.output.inj h
        exact ⟨hgraph, _, hname⟩
      · cases h
    · split at h <;> cases h

/-- A link is that of an authored input. -/
theorem exists_linkOf {α : Type} {inst : Instance α} {defInput : Element}
    (h : inst.link d graph defInput ≠ .nothing) :
    ∃ authored, inst.input? defInput.name = some authored ∧
      inst.link d graph defInput = linkOf d graph authored := by
  unfold Instance.link at h ⊢
  cases hinput : inst.input? defInput.name with
  | none => exact absurd (by rw [hinput]; rfl) h
  | some authored => exact ⟨authored, rfl, rfl⟩

end Links

/-- How an input is built. -/
inductive InputStep (r : Request) (walk : Walk) (scope : Scope) (inst : Instance Nat)
    (nodeName nodePath : String) (defInput : Element) (b : Build) : ShaderInput → Build → Prop
  | added {index : Nat} (hadded : inst.connection? defInput.name = some index) :
      InputStep r walk scope inst nodeName nodePath defInput b (connectedInput defInput index) b
  | node {target : Scope} {name : String} {index : Nat} {b' : Build}
      (hadded : inst.connection? defInput.name = none)
      (href : scope.follow (inst.link r.document scope.graph defInput) = .node target name)
      (hwalk : walk target name false b = .ok (index, b')) :
      InputStep r walk scope inst nodeName nodePath defInput b (connectedInput defInput index) b'
  | outer {outer : ShaderInput}
      (hadded : inst.connection? defInput.name = none)
      (href : scope.follow (inst.link r.document scope.graph defInput) = .outer outer) :
      InputStep r walk scope inst nodeName nodePath defInput b
        { outer with name := defInput.name, type := .ofName defInput.typeName } b
  | own {input : ShaderInput} {b' : Build}
      (hadded : inst.connection? defInput.name = none)
      (href : scope.follow (inst.link r.document scope.graph defInput) = .nothing)
      (hstep : OwnInputStep r inst nodeName nodePath defInput b input b') :
      InputStep r walk scope inst nodeName nodePath defInput b input b'

theorem buildInput_ok {inst : Instance Nat} {nodeName nodePath : String} {defInput : Element}
    {input : ShaderInput}
    (h : buildInput r walk scope inst nodeName nodePath defInput b = .ok (input, b')) :
    InputStep r walk scope inst nodeName nodePath defInput b input b' := by
  unfold buildInput at h
  cases hadded : inst.connection? defInput.name with
  | some index =>
    simp only [hadded, pure_ok] at h
    obtain ⟨rfl, rfl⟩ := h
    exact .added hadded
  | none =>
    cases href : scope.follow (inst.link r.document scope.graph defInput) with
    | node target name =>
      simp only [hadded, href, bind_ok, pure_ok] at h
      obtain ⟨index, _, hwalk, rfl, rfl⟩ := h
      exact .node hadded href hwalk
    | outer outer =>
      simp only [hadded, href, pure_ok] at h
      obtain ⟨rfl, rfl⟩ := h
      exact .outer hadded href
    | nothing =>
      simp only [hadded, href] at h
      exact .own hadded href (buildOwnInput_ok h)

/-- How the inputs for several inputs of a definition are built, one after the other. -/
inductive InputsStep (r : Request) (walk : Walk) (scope : Scope) (inst : Instance Nat)
    (nodeName nodePath : String) : List Element → Build → List ShaderInput → Build → Prop
  | nil {b : Build} : InputsStep r walk scope inst nodeName nodePath [] b [] b
  | cons {defInput : Element} {rest : List Element} {b b₁ b' : Build} {input : ShaderInput}
      {inputs : List ShaderInput}
      (hinput : InputStep r walk scope inst nodeName nodePath defInput b input b₁)
      (hinputs : InputsStep r walk scope inst nodeName nodePath rest b₁ inputs b') :
      InputsStep r walk scope inst nodeName nodePath (defInput :: rest) b (input :: inputs) b'

theorem buildInputs_ok {inst : Instance Nat} {nodeName nodePath : String} {nodeDef : Element}
    {inputs : List ShaderInput}
    (h : buildInputs r walk scope inst nodeDef nodeName nodePath b = .ok (inputs, b')) :
    InputsStep r walk scope inst nodeName nodePath nodeDef.valueElements b inputs b' := by
  unfold buildInputs at h
  generalize nodeDef.valueElements = defInputs at h
  induction defInputs generalizing b inputs with
  | nil =>
    rw [List.mapM_nil, pure_ok] at h
    obtain ⟨rfl, rfl⟩ := h
    exact .nil
  | cons defInput rest ih =>
    obtain ⟨input, tail, b₁, hinput, htail, rfl⟩ := mapM_cons_ok.mp h
    exact .cons (buildInput_ok hinput) (ih htail)

/-! ## Nodes -/

/-- The node graph that implements a node definition, and the name of the node behind its output. -/
def expansion? (r : Request) (nodeDef : String) : Option (String × String) :=
  match implementationOf r nodeDef with
  | .ok (.inr graph) => (outputNode? r.document graph "").map (graph, ·)
  | _ => none

theorem expansion?_eq_some {nodeDef graph name : String}
    (h : expansion? r nodeDef = some (graph, name)) :
    implementationOf r nodeDef = .ok (.inr graph) ∧
      outputNode? r.document graph "" = some name := by
  unfold expansion? at h
  split at h
  · rename_i himpl
    obtain ⟨name', hname, heq⟩ := Option.map_eq_some_iff.mp h
    obtain ⟨rfl, rfl⟩ := Prod.mk.inj heq
    exact ⟨himpl, hname⟩
  · cases h

/-- The code that implements a node definition. -/
def code? (r : Request) (nodeDef : String) : Option NodeCode :=
  match implementationOf r nodeDef with
  | .ok (.inl code) => some code
  | _ => none

/-- How a node is added for a draft. -/
inductive AddStep (r : Request) (walk : Walk) (d : Draft) (b : Build) : Nat → Build → Prop
  | inner {graph name : String} {index : Nat} {b' : Build}
      (hexpansion : expansion? r d.nodeDef.name = some (graph, name))
      (hwalk : walk (d.innerScope graph) name d.isRoot b = .ok (index, b')) :
      AddStep r walk d b index b'
  | single {index : Nat} {b' : Build} (hexpansion : expansion? r d.nodeDef.name = none)
      (hroot : d.isRoot → ∃ impl, implementationOf r d.nodeDef.name = .ok impl)
      (hpush : pushNode (d.node (code? r d.nodeDef.name)) b = .ok (index, b')) :
      AddStep r walk d b index b'

theorem addNode_ok {d : Draft} {index : Nat} (h : addNode r walk d b = .ok (index, b')) :
    AddStep r walk d b index b' := by
  unfold addNode at h
  cases himpl : implementationOf r d.nodeDef.name with
  | ok impl =>
    cases impl with
    | inl code =>
      rw [himpl] at h
      have hcode : code? r d.nodeDef.name = some code := by simp [code?, himpl]
      exact .single (by simp [expansion?, himpl]) (fun _ => ⟨_, himpl⟩) (hcode ▸ h)
    | inr graph =>
      have hcode : code? r d.nodeDef.name = none := by simp [code?, himpl]
      cases hname : outputNode? r.document graph "" with
      | some name =>
        simp only [himpl, hname] at h
        exact .inner (by simp [expansion?, himpl, hname]) h
      | none =>
        simp only [himpl, hname] at h
        exact .single (by simp [expansion?, himpl, hname]) (fun _ => ⟨_, himpl⟩) (hcode ▸ h)
  | error cause =>
    have hcode : code? r d.nodeDef.name = none := by simp [code?, himpl]
    rw [himpl] at h
    by_cases hroot : d.isRoot
    · simp only [hroot] at h
      exact absurd h throw_ok
    · simp only [hroot] at h
      exact .single (by simp [expansion?, himpl]) (absurd · hroot) (hcode ▸ h)

/-- How a planned node is built. -/
inductive PlanStep (r : Request) (walk : Walk) (p : Plan) (b : Build) : Nat → Build → Prop
  | mk {name : String} {inputs : List ShaderInput} {index : Nat} {b₁ b₂ b' : Build}
      (hname : freshName p.base b = .ok (name, b₁))
      (hinputs : InputsStep r walk p.scope p.inst name p.path p.nodeDef.valueElements b₁ inputs b₂)
      (hadd : AddStep r walk { p with name, inputs } b₂ index b') : PlanStep r walk p b index b'

theorem buildPlan_ok {p : Plan} {index : Nat} (h : buildPlan r walk p b = .ok (index, b')) :
    PlanStep r walk p b index b' := by
  simp only [buildPlan, Plan.draft, bind_ok, pure_ok] at h
  obtain ⟨_, b₂, ⟨name, b₁, hname, inputs, _, hinputs, rfl, rfl⟩, hadd⟩ := h
  exact .mk hname (buildInputs_ok hinputs) (addNode_ok hadd)

/-- How a conversion between color spaces is added after a node. -/
inductive ConversionStep (r : Request) (walk : Walk) (scope : Scope) (e : Element) (index : Nat)
    (path : String) (b : Build) : Nat → Build → Prop
  | missing (hnode : b.nodes[index]? = none) :
      ConversionStep r walk scope e index path b index b
  | unneeded {node : ShaderNode} (hnode : b.nodes[index]? = some node)
      (hconversion : conversionOf? r e (node.inputs.map (·.type)) node.type = none) :
      ConversionStep r walk scope e index path b index b
  | needed {node : ShaderNode} {nodeDef : Element} {index' : Nat} {b' : Build}
      (hnode : b.nodes[index]? = some node)
      (hconversion : conversionOf? r e (node.inputs.map (·.type)) node.type = some nodeDef)
      (hplan : PlanStep r walk (.ofConversion scope node index nodeDef path) b index' b') :
      ConversionStep r walk scope e index path b index' b'

theorem convertColor_ok {e : Element} {index index' : Nat} {path : String}
    (h : convertColor r walk scope e index path b = .ok (index', b')) :
    ConversionStep r walk scope e index path b index' b' := by
  simp only [convertColor, bind_ok, get_ok] at h
  obtain ⟨_, _, ⟨rfl, rfl⟩, h⟩ := h
  cases hnode : b.nodes[index]? with
  | none =>
    rw [hnode, pure_ok] at h
    obtain ⟨rfl, rfl⟩ := h
    exact .missing hnode
  | some node =>
    cases hconversion : conversionOf? r e (node.inputs.map (·.type)) node.type with
    | none =>
      simp only [hnode, hconversion, pure_ok] at h
      obtain ⟨rfl, rfl⟩ := h
      exact .unneeded hnode hconversion
    | some nodeDef =>
      simp only [hnode, hconversion] at h
      exact .needed hnode hconversion (buildPlan_ok h)

/-- The node for an element that has no definition. -/
def undefinedNode (e : Element) (name path : String) : ShaderNode :=
  { name, path, category := e.category, nodeDef := "", type := .ofName e.typeName, inputs := []
    code? := none }

/-- How the node for an element is built. -/
inductive ElementStep (r : Request) (walk : Walk) (scope : Scope) (e : Element) (key path : String)
    (isRoot : Bool) (b : Build) : Nat → Build → Prop
  | defined {nodeDef : Element} {index index' : Nat} {b₁ b' : Build}
      (hdef : r.document.nodeDefOfNode? e = some nodeDef)
      (hplan : PlanStep r walk (.ofNode scope e nodeDef key path isRoot) b index b₁)
      (hconversion : ConversionStep r walk scope e index path b₁ index' b') :
      ElementStep r walk scope e key path isRoot b index' b'
  | undefined {name : String} {index : Nat} {b₁ b' : Build}
      (hdef : r.document.nodeDefOfNode? e = none) (hroot : ¬ isRoot)
      (hname : freshName (scope.namePrefix ++ e.name) b = .ok (name, b₁))
      (hpush : pushNode (undefinedNode e name path) b₁ = .ok (index, b')) :
      ElementStep r walk scope e key path isRoot b index b'

theorem buildElement_ok {e : Element} {key path : String} {isRoot : Bool} {index : Nat}
    (h : buildElement r walk scope e key path isRoot b = .ok (index, b')) :
    ElementStep r walk scope e key path isRoot b index b' := by
  unfold buildElement at h
  cases hdef : r.document.nodeDefOfNode? e with
  | some nodeDef =>
    simp only [hdef, buildDefinedNode, bind_ok] at h
    obtain ⟨index₁, b₁, hplan, hconversion⟩ := h
    exact .defined hdef (buildPlan_ok hplan) (convertColor_ok hconversion)
  | none =>
    simp only [hdef, buildUndefinedNode] at h
    split at h
    · exact absurd h throw_ok
    · rename_i hroot
      obtain ⟨name, b₁, hname, hpush⟩ := bind_ok.mp h
      exact .undefined hdef hroot hname hpush

/-- How the walk finds or builds the node with a name in a scope. -/
inductive WalkStep (r : Request) (walk : Walk) (scope : Scope) (name : String) (isRoot : Bool)
    (b : Build) : Nat → Build → Prop
  | known {index : Nat} (hbuilt : Ordered.get? (scope.keyOf name) b.built = some index) :
      WalkStep r walk scope name isRoot b index b
  | new {e : Element} {index : Nat} {b₁ b₂ b₃ b' : Build}
      (hbuilt : Ordered.get? (scope.keyOf name) b.built = none)
      (hprogress : scope.keyOf name ∉ b.inProgress)
      (hbegin : beginNode (scope.keyOf name) b = .ok ((), b₁))
      (helement : r.document.element? (scope.pathOf name) = some e)
      (hstep : ElementStep r walk scope e (scope.keyOf name) (scope.pathOf name) isRoot b₁ index b₂)
      (hend : endNode (scope.keyOf name) b₂ = .ok ((), b₃))
      (hrecord : recordBuilt (scope.keyOf name) index b₃ = .ok ((), b')) :
      WalkStep r walk scope name isRoot b index b'

theorem buildNodeWith_ok {name : String} {isRoot : Bool} {index : Nat}
    (h : buildNodeWith r walk scope name isRoot b = .ok (index, b')) :
    WalkStep r walk scope name isRoot b index b' := by
  simp only [buildNodeWith, bind_ok, get_ok] at h
  obtain ⟨_, _, ⟨rfl, rfl⟩, h⟩ := h
  cases hbuilt : Ordered.get? (scope.keyOf name) b.built with
  | some index =>
    rw [hbuilt, pure_ok] at h
    obtain ⟨rfl, rfl⟩ := h
    exact .known hbuilt
  | none =>
    simp only [hbuilt] at h
    split at h
    · exact absurd h throw_ok
    · rename_i hprogress
      simp only [buildNewNode, bind_ok] at h
      obtain ⟨_, b₁, hbegin, h⟩ := h
      cases helement : r.document.element? (scope.pathOf name) with
      | none =>
        rw [helement] at h
        exact absurd h throw_ok
      | some e =>
        simp only [helement, bind_ok, pure_ok] at h
        obtain ⟨_, b₂, hstep, _, b₃, hend, _, _, hrecord, rfl, rfl⟩ := h
        exact .new hbuilt (by simpa using hprogress) hbegin helement (buildElement_ok hstep) hend
          hrecord

/-- How the node for the element to be drawn is built. -/
inductive RootStep (r : Request) (walk : Walk) (path : String) (b : Build) : Nat → Build → Prop
  | shaderRef {e nodeDef : Element} {index : Nat} {b' : Build}
      (helement : r.document.element? path = some e) (hcategory : e.category = "shaderref")
      (hdef : r.document.nodeDefOfShaderRef? e = some nodeDef)
      (hplan : PlanStep r walk (.ofShaderRef e nodeDef path) b index b') :
      RootStep r walk path b index b'
  | output {e graph : Element} {name : String} {index : Nat} {b' : Build}
      (helement : r.document.element? path = some e) (hcategory : e.category = "output")
      (hgraph : (r.document.element? (Document.splitPath path).1).filter
        (·.category = "nodegraph") = some graph)
      (hname : e.filled? "nodename" = some name)
      (hwalk : walk { graph := graph.name } name true b = .ok (index, b')) :
      RootStep r walk path b index b'
  | node {e : Element} {index : Nat} {b' : Build}
      (helement : r.document.element? path = some e) (href : e.category ≠ "shaderref")
      (houtput : e.category ≠ "output")
      (hwalk : walk { graph := (Document.splitPath path).1 } e.name true b = .ok (index, b')) :
      RootStep r walk path b index b'

theorem buildRoot_ok {path : String} {index : Nat}
    (h : buildRoot r walk path b = .ok (index, b')) : RootStep r walk path b index b' := by
  unfold buildRoot at h
  cases helement : r.document.element? path with
  | none =>
    rw [helement] at h
    exact absurd h throw_ok
  | some e =>
    by_cases href : e.category = "shaderref"
    · cases hdef : r.document.nodeDefOfShaderRef? e with
      | none =>
        simp only [helement, href, hdef, if_true] at h
        exact absurd h throw_ok
      | some nodeDef =>
        simp only [helement, href, hdef, if_true] at h
        exact .shaderRef helement href hdef (buildPlan_ok h)
    · by_cases houtput : e.category = "output"
      · simp only [helement, houtput, if_true] at h
        cases hgraph : (r.document.element? (Document.splitPath path).1).filter
            (·.category = "nodegraph") with
        | none =>
          simp only [hgraph] at h
          exact absurd h throw_ok
        | some graph =>
          cases hname : e.filled? "nodename" with
          | none =>
            simp only [hgraph, hname] at h
            exact absurd h throw_ok
          | some name =>
            simp only [hgraph, hname] at h
            exact .output helement houtput hgraph hname h
      · simp only [helement, href, houtput, if_false] at h
        exact .node helement href houtput h

end MaterialViewer.Graph
