import Mathlib.Data.List.Forall2
import MaterialViewer.Proofs.Graph.Sample
import MaterialViewer.Proofs.Graph.Steps

/-!
# Proofs: the complete and the reduced interface

Two builds of one element that differ in the interface only run side by side. They take the same
names, meet the same nodes and fail with the same error. What differs are the public parameters: the
complete build registers one where the reduced build may write a value into the code. So the
parameters of the complete build are followed together with the inputs for which they were
registered, and those of the reduced build are a selection of them.

A binding may be copied, from the node in whose place a node graph stands to the nodes of that
graph. Inputs are therefore related through the parameters that they read, and not through their own
nodes.
-/

namespace MaterialViewer.Graph

/-- The request with another interface. -/
def Request.withInterface (r : Request) (interface : ShaderInterface) : Request :=
  { r with options := { r.options with interface } }

@[simp] theorem Request.withInterface_document (r : Request) (interface : ShaderInterface) :
    (r.withInterface interface).document = r.document := rfl

@[simp] theorem Request.withInterface_registry (r : Request) (interface : ShaderInterface) :
    (r.withInterface interface).registry = r.registry := rfl

@[simp] theorem Request.withInterface_target (r : Request) (interface : ShaderInterface) :
    (r.withInterface interface).options.target = r.options.target := rfl

/-! ## Where parameters come from -/

/-- The instance of a definition that stands at a path of the document. -/
inductive InstanceAt (r : Request) (path : String) : Instance Nat → Element → Prop
  | node {e nodeDef : Element} (helement : r.document.element? path = some e)
      (hdef : r.document.nodeDefOfNode? e = some nodeDef) : InstanceAt r path (.node e) nodeDef
  | shaderRef {e nodeDef : Element} (helement : r.document.element? path = some e)
      (hdef : r.document.nodeDefOfShaderRef? e = some nodeDef) :
      InstanceAt r path (.shaderRef e) nodeDef
  | conversion {upstream : String} {e nodeDef : Element} {inputTypes : List ValueType}
      {type : ValueType} {connections : List (String × Nat)}
      (hpath : path = conversionPath upstream)
      (helement : r.document.element? upstream = some e)
      (hdef : conversionOf? r e inputTypes type = some nodeDef) :
      InstanceAt r path (.added connections) nodeDef

/-- A parameter with what is known of the input for which it was registered. -/
structure Registration where
  /-- The parameter. -/
  parameter : Parameter
  /-- Whether the document gives a value for the input at its node. -/
  isAuthored : Bool

namespace Registration

/-- The parameter is that of an input of the instance at its path, and the mark is right. -/
def Holds (r : Request) (o : Registration) : Prop :=
  ∃ inst nodeDef, InstanceAt r o.parameter.nodePath inst nodeDef ∧
    ∃ defInput ∈ nodeDef.valueElements,
      o.parameter = inst.parameter o.parameter.nodeName o.parameter.nodePath defInput ∧
      o.isAuthored = (inst.valueOf? defInput).isSome

/-- The parameter is one of the reduced interface as well. -/
def isKept (o : Registration) : Bool := o.parameter.type = .filename || o.isAuthored

/-- The input for which the parameter was registered, with a binding. -/
def input (o : Registration) (binding : InputBinding) : ShaderInput :=
  ⟨o.parameter.inputName, o.parameter.type, binding, o.parameter.value?⟩

end Registration

/-! ## Two builds side by side -/

/-- An input of the complete build and the input of the reduced build in its place, at the node with
a name and a path. A uniform for which a parameter was registered is kept or becomes the value of
the input, and both may be copied from the node in whose place the graph of the node stands. -/
inductive InputReduces (r : Request) (os : List Registration) :
    (node path : String) → ShaderInput → ShaderInput → Prop
  | other {node path : String} {i : ShaderInput} (hother : ∀ v, i.binding ≠ .uniform v) :
      InputReduces r os node path i i
  | kept {o : Registration} (ho : o ∈ os) (hkept : o.isKept = true) :
      InputReduces r os o.parameter.nodeName o.parameter.nodePath
        (o.input (.uniform o.parameter.uniformName)) (o.input (.uniform o.parameter.uniformName))
  | inlined {o : Registration} {value : Value} (ho : o ∈ os) (hkept : o.isKept = false)
      (hvalue : o.parameter.value? = some value) :
      InputReduces r os o.parameter.nodeName o.parameter.nodePath
        (o.input (.uniform o.parameter.uniformName)) (o.input (.constant value))
  | copied {node path outer outerPath graph : String} {inst outerInst : Instance Nat}
      {nodeDef outerDef defInput : Element} {i i' : ShaderInput}
      (hinst : InstanceAt r path inst nodeDef) (hinput : defInput ∈ nodeDef.valueElements)
      (hlink : inst.link r.document graph defInput = .interface i.name)
      (houter : InstanceAt r outerPath outerInst outerDef)
      (hgraph : implementationOf r outerDef.name = .ok (.inr graph))
      (hcopied : InputReduces r os outer outerPath i i') :
      InputReduces r os node path
        { i with name := defInput.name, type := .ofName defInput.typeName }
        { i' with name := defInput.name, type := .ofName defInput.typeName }

/-- Two nodes are the same but for the bindings of their inputs. -/
structure NodeReduces (r : Request) (os : List Registration) (n n' : ShaderNode) : Prop where
  same : n' = { n with inputs := n'.inputs }
  inputs : List.Forall₂ (InputReduces r os n.name n.path) n.inputs n'.inputs

/-- Two builds are the same but for their public parameters and the bindings that read them. -/
structure BuildReduces (r : Request) (os : List Registration) (b b' : Build) : Prop where
  nodes : List.Forall₂ (NodeReduces r os) b.nodes b'.nodes
  built : b'.built = b.built
  inProgress : b'.inProgress = b.inProgress
  names : b'.names = b.names
  complete : b.parameters = os.map (·.parameter)
  reduced : b'.parameters = (os.filter (·.isKept)).map (·.parameter)
  holds : ∀ o ∈ os, o.Holds r

/-- The inputs for which a node graph stands are related, and it implements their node. -/
inductive InterfaceReduces (r : Request) (os : List Registration) (graph : String) :
    Option (List ShaderInput) → Option (List ShaderInput) → Prop
  | none : InterfaceReduces r os graph none none
  | some {outer outerPath : String} {inst : Instance Nat} {nodeDef : Element}
      {inputs inputs' : List ShaderInput} (houter : InstanceAt r outerPath inst nodeDef)
      (hgraph : implementationOf r nodeDef.name = .ok (.inr graph))
      (hinputs : List.Forall₂ (InputReduces r os outer outerPath) inputs inputs') :
      InterfaceReduces r os graph (some inputs) (some inputs')

/-- Two scopes are the same but for the bindings of the inputs for which a node graph stands. -/
structure ScopeReduces (r : Request) (os : List Registration) (s s' : Scope) : Prop where
  graph : s'.graph = s.graph
  keyPrefix : s'.keyPrefix = s.keyPrefix
  namePrefix : s'.namePrefix = s.namePrefix
  interface : InterfaceReduces r os s.graph s.interface? s'.interface?

variable {α α' β β' : Type} {r : Request} {os os₁ : List Registration} {b b' : Build}

section Mono

variable {node path : String} (hos : os ⊆ os₁)

include hos

theorem InputReduces.mono {i i' : ShaderInput} (h : InputReduces r os node path i i') :
    InputReduces r os₁ node path i i' := by
  induction h with
  | other hother => exact .other hother
  | kept ho hkept => exact .kept (hos ho) hkept
  | inlined ho hkept hvalue => exact .inlined (hos ho) hkept hvalue
  | copied hinst hinput hlink houter hgraph _ ih =>
    exact .copied hinst hinput hlink houter hgraph ih

theorem inputsReduce_mono {is is' : List ShaderInput}
    (h : List.Forall₂ (InputReduces r os node path) is is') :
    List.Forall₂ (InputReduces r os₁ node path) is is' :=
  h.imp fun _ _ hinput => hinput.mono hos

theorem NodeReduces.mono {n n' : ShaderNode} (h : NodeReduces r os n n') :
    NodeReduces r os₁ n n' :=
  ⟨h.same, inputsReduce_mono hos h.inputs⟩

theorem InterfaceReduces.mono {graph : String} {is? is'? : Option (List ShaderInput)}
    (h : InterfaceReduces r os graph is? is'?) : InterfaceReduces r os₁ graph is? is'? := by
  cases h with
  | none => exact .none
  | some houter hgraph hinputs => exact .some houter hgraph (inputsReduce_mono hos hinputs)

theorem ScopeReduces.mono {s s' : Scope} (h : ScopeReduces r os s s') : ScopeReduces r os₁ s s' :=
  ⟨h.graph, h.keyPrefix, h.namePrefix, h.interface.mono hos⟩

end Mono

section Fields

variable {node path : String} {i i' : ShaderInput}

theorem InputReduces.name_eq (h : InputReduces r os node path i i') : i'.name = i.name := by
  cases h <;> rfl

theorem InputReduces.type_eq (h : InputReduces r os node path i i') : i'.type = i.type := by
  cases h <;> rfl

theorem InputReduces.of_connection {index : Nat} (h : i.binding = .connection index) :
    InputReduces r os node path i i :=
  .other fun _ hv => by cases h.symm.trans hv

theorem NodeReduces.types_eq {n n' : ShaderNode} (h : NodeReduces r os n n') :
    n'.inputs.map (·.type) = n.inputs.map (·.type) := by
  have hall := h.inputs
  generalize n.inputs = is at hall
  generalize n'.inputs = is' at hall
  induction hall with
  | nil => rfl
  | cons hinput _ ih => rw [List.map_cons, List.map_cons, hinput.type_eq, ih]

end Fields

/-! ## Steps side by side -/

/-- A step of the complete build and one of the reduced build both fail, with the same error, or
both end, with related results. -/
def Together (r : Request) (os : List Registration) (m : BuildM α) (m' : BuildM α') (b b' : Build)
    (Q : List Registration → α → α' → Prop) : Prop :=
  (∃ e, m b = .error e ∧ m' b' = .error e) ∨
    ∃ os₁ a a' b₁ b₁', m b = .ok (a, b₁) ∧ m' b' = .ok (a', b₁') ∧ os ⊆ os₁ ∧
      BuildReduces r os₁ b₁ b₁' ∧ Q os₁ a a'

/-- Both steps have the same result. -/
abbrev Same : List Registration → α → α → Prop := fun _ a a' => a' = a

section Together

variable {m : BuildM α} {m' : BuildM α'} {f : α → BuildM β} {f' : α' → BuildM β'}
  {Q : List Registration → α → α' → Prop} {P : List Registration → β → β' → Prop}

theorem together_pure {a : α} {a' : α'} (h : BuildReduces r os b b') (hQ : Q os a a') :
    Together r os (pure a) (pure a') b b' Q :=
  .inr ⟨os, a, a', b, b', rfl, rfl, List.Subset.refl os, h, hQ⟩

theorem together_throw {e : GenerationError} :
    Together r os (throw e : BuildM α) (throw e : BuildM α') b b' Q := .inl ⟨e, rfl, rfl⟩

theorem Together.bind (h : Together r os m m' b b' Q)
    (hf : ∀ os₁ a a' b₁ b₁', os ⊆ os₁ → BuildReduces r os₁ b₁ b₁' → Q os₁ a a' →
      Together r os₁ (f a) (f' a') b₁ b₁' P) :
    Together r os (m >>= f) (m' >>= f') b b' P := by
  rcases h with ⟨e, hm, hm'⟩ | ⟨os₁, a, a', b₁, b₁', hm, hm', hos, hb, hQ⟩
  · exact .inl ⟨e, bind_of_error hm, bind_of_error hm'⟩
  · rcases hf os₁ a a' b₁ b₁' hos hb hQ with
      ⟨e, hrun, hrun'⟩ | ⟨os₂, c, c', b₂, b₂', hrun, hrun', hos', hb', hP⟩
    · exact .inl ⟨e, (bind_of_ok hm).trans hrun, (bind_of_ok hm').trans hrun'⟩
    · exact .inr ⟨os₂, c, c', b₂, b₂', (bind_of_ok hm).trans hrun, (bind_of_ok hm').trans hrun',
        List.Subset.trans hos hos', hb', hP⟩

theorem together_get {f : Build → BuildM β} {f' : Build → BuildM β'}
    (h : Together r os (f b) (f' b') b b' P) : Together r os (get >>= f) (get >>= f') b b' P := h

theorem together_modifyGet {f : Build → α × Build} {f' : Build → α' × Build} (hos : os ⊆ os₁)
    (h : BuildReduces r os₁ (f b).2 (f' b').2) (hQ : Q os₁ (f b).1 (f' b').1) :
    Together r os (modifyGet f) (modifyGet f') b b' Q :=
  .inr ⟨os₁, (f b).1, (f' b').1, (f b).2, (f' b').2, rfl, rfl, hos, h, hQ⟩

end Together

/-- Several steps one after the other, with results of which the relation is kept. -/
theorem together_mapM {γ : Type} {Q : List Registration → α → α' → Prop}
    (hmono : ∀ {os os₁ : List Registration} {a a'}, os ⊆ os₁ → Q os a a' → Q os₁ a a')
    {f : γ → BuildM α} {f' : γ → BuildM α'} {xs : List γ} (h : BuildReduces r os b b')
    (hf : ∀ x ∈ xs, ∀ os₁ b₁ b₁', os ⊆ os₁ → BuildReduces r os₁ b₁ b₁' →
      Together r os₁ (f x) (f' x) b₁ b₁' Q) :
    Together r os (xs.mapM f) (xs.mapM f') b b' fun os₁ => List.Forall₂ (Q os₁) := by
  induction xs generalizing os b b' with
  | nil => exact together_pure h .nil
  | cons x rest ih =>
    rw [List.mapM_cons, List.mapM_cons]
    refine (hf x List.mem_cons_self os b b' (List.Subset.refl os) h).bind ?_
    intro os₁ a a' b₁ b₁' hos h₁ hQ
    refine (ih h₁ fun y hy os₂ b₂ b₂' hos₂ h₂ =>
      hf y (List.mem_cons_of_mem x hy) os₂ b₂ b₂' (List.Subset.trans hos hos₂) h₂).bind ?_
    intro os₂ as as' b₂ b₂' hos₂ h₂ hall
    exact together_pure h₂ (.cons (hmono hos₂ hQ) hall)

/-! ## Parts of a step -/

theorem freshName_together (base : String) (h : BuildReduces r os b b') :
    Together r os (freshName base) (freshName base) b b' Same := by
  refine together_modifyGet (List.Subset.refl os) ?_ ?_
  · refine ⟨h.nodes, h.built, h.inProgress, ?_, h.complete, h.reduced, h.holds⟩
    show b'.names ++ _ = b.names ++ _
    rw [h.names]
  · show FreshName.fresh b'.names base = _
    rw [h.names]

theorem pushNode_together {n n' : ShaderNode} (hnode : NodeReduces r os n n')
    (h : BuildReduces r os b b') : Together r os (pushNode n) (pushNode n') b b' Same := by
  refine together_modifyGet (List.Subset.refl os) ?_ h.nodes.length_eq.symm
  exact ⟨List.rel_append h.nodes (.cons hnode .nil), h.built, h.inProgress, h.names, h.complete,
    h.reduced, h.holds⟩

theorem beginNode_together (key : String) (h : BuildReduces r os b b') :
    Together r os (beginNode key) (beginNode key) b b' Same := by
  refine together_modifyGet (List.Subset.refl os) ?_ rfl
  refine ⟨h.nodes, h.built, ?_, h.names, h.complete, h.reduced, h.holds⟩
  show key :: b'.inProgress = key :: b.inProgress
  rw [h.inProgress]

theorem endNode_together (key : String) (h : BuildReduces r os b b') :
    Together r os (endNode key) (endNode key) b b' Same := by
  refine together_modifyGet (List.Subset.refl os) ?_ rfl
  refine ⟨h.nodes, h.built, ?_, h.names, h.complete, h.reduced, h.holds⟩
  show b'.inProgress.erase key = b.inProgress.erase key
  rw [h.inProgress]

theorem recordBuilt_together (key : String) (index : Nat) (h : BuildReduces r os b b') :
    Together r os (recordBuilt key index) (recordBuilt key index) b b' Same := by
  refine together_modifyGet (List.Subset.refl os) ?_ rfl
  refine ⟨h.nodes, ?_, h.inProgress, h.names, h.complete, h.reduced, h.holds⟩
  show Ordered.put key index b'.built = Ordered.put key index b.built
  rw [h.built]

/-! ## Inputs -/

theorem default?_isSome {type : ValueType} (h : type.isClosure = false) :
    (Value.default? type).isSome := by
  cases type with
  | tuple shape => cases shape <;> rfl
  | closure kind => cases h
  | _ => rfl

theorem valueOrDefault?_isSome (inst : Instance Nat) (defInput : Element)
    (h : (ValueType.ofName defInput.typeName).isClosure = false) :
    (inst.valueOrDefault? defInput).isSome := by
  unfold Instance.valueOrDefault?
  rw [Option.isSome_or, default?_isSome h, Bool.or_true]

theorem fixedBinding?_complete (type : ValueType) (value? : Option Value) (isAuthored : Bool) :
    fixedBinding? (r.withInterface .complete) type value? isAuthored =
      if !Glsl.isShaderType type || type.isClosure then some .unbound else none := by
  have hinlined : isInlined (r.withInterface .complete) type isAuthored = false := by
    simp [isInlined, Request.withInterface]
  rw [fixedBinding?, hinlined]
  rfl

theorem fixedBinding?_reduced (type : ValueType) (value? : Option Value) (isAuthored : Bool) :
    fixedBinding? (r.withInterface .reduced) type value? isAuthored =
      if !Glsl.isShaderType type || type.isClosure then some .unbound
      else if type ≠ .filename && !isAuthored then value?.map .constant else none := by
  have hinlined : isInlined (r.withInterface .reduced) type isAuthored =
      (type ≠ .filename && !isAuthored) := by
    simp [isInlined, Request.withInterface]
  rw [fixedBinding?, hinlined]

/-- The parameter of an input is registered by both builds, or by the complete one only. -/
theorem BuildReduces.register {o : Registration} (h : BuildReduces r os b b') (ho : o.Holds r) :
    BuildReduces r (os ++ [o]) { b with parameters := b.parameters ++ [o.parameter] }
      { b' with parameters := b'.parameters ++ if o.isKept then [o.parameter] else [] } := by
  have hos : os ⊆ os ++ [o] := List.subset_append_left os [o]
  refine ⟨h.nodes.imp fun _ _ hnode => hnode.mono hos, h.built, h.inProgress, h.names, ?_, ?_, ?_⟩
  · show b.parameters ++ _ = _
    rw [h.complete, List.map_append, List.map_singleton]
  · show b'.parameters ++ _ = _
    rw [h.reduced, List.filter_append, List.map_append, List.filter_singleton]
    cases o.isKept <;> rfl
  · intro o' ho'
    rcases List.mem_append.mp ho' with ho' | ho'
    · exact h.holds o' ho'
    · exact List.mem_singleton.mp ho' ▸ ho

/-- The input of an instance that refers to nothing and reads no geometry. -/
theorem boundInput_together {inst : Instance Nat} {nodeDef defInput : Element}
    {nodeName nodePath : String} (hinst : InstanceAt r nodePath inst nodeDef)
    (hinput : defInput ∈ nodeDef.valueElements) (h : BuildReduces r os b b') :
    Together r os
      (do
        let binding ← classify (r.withInterface .complete) (.ofName defInput.typeName)
          (inst.valueOrDefault? defInput) (inst.valueOf? defInput).isSome nodeName defInput.name
          nodePath
        return inst.boundInput defInput binding)
      (do
        let binding ← classify (r.withInterface .reduced) (.ofName defInput.typeName)
          (inst.valueOrDefault? defInput) (inst.valueOf? defInput).isSome nodeName defInput.name
          nodePath
        return inst.boundInput defInput binding)
      b b' fun os₁ => InputReduces r os₁ nodeName nodePath := by
  let o : Registration :=
    ⟨inst.parameter nodeName nodePath defInput, (inst.valueOf? defInput).isSome⟩
  have ho : o.Holds r := ⟨inst, nodeDef, hinst, defInput, hinput, rfl, rfl⟩
  have hmem : o ∈ os ++ [o] := List.mem_append_right os (List.mem_singleton_self o)
  have hos : os ⊆ os ++ [o] := List.subset_append_left os [o]
  have hregister := h.register ho
  unfold classify
  rw [fixedBinding?_complete, fixedBinding?_reduced]
  by_cases hunbound : (!Glsl.isShaderType (.ofName defInput.typeName) ||
      (ValueType.ofName defInput.typeName).isClosure) = true
  · rw [if_pos hunbound, if_pos hunbound]
    exact together_pure h (.other fun _ hv => by cases hv)
  · have hflag : (decide (ValueType.ofName defInput.typeName ≠ .filename) &&
        !(inst.valueOf? defInput).isSome) = !o.isKept := by
      by_cases htexture : ValueType.ofName defInput.typeName = .filename
      · simp [Registration.isKept, o, Instance.parameter, htexture]
      · simp [Registration.isKept, o, Instance.parameter, htexture]
    rw [if_neg hunbound, if_neg hunbound, hflag]
    cases hkept : o.isKept with
    | true =>
      rw [hkept, if_pos rfl] at hregister
      exact .inr ⟨os ++ [o], _, _, _, _, rfl, rfl, hos, hregister, .kept hmem hkept⟩
    | false =>
      rw [hkept, if_neg Bool.false_ne_true, List.append_nil] at hregister
      have hclosure : (ValueType.ofName defInput.typeName).isClosure = false :=
        Bool.eq_false_iff.mpr fun hclosure => hunbound (by rw [hclosure, Bool.or_true])
      obtain ⟨value, hvalue⟩ :=
        Option.isSome_iff_exists.mp (valueOrDefault?_isSome inst defInput hclosure)
      have hconstant : (inst.valueOrDefault? defInput).map InputBinding.constant =
          some (.constant value) := by
        rw [hvalue, Option.map_some]
      rw [Bool.not_false, if_pos rfl, hconstant]
      exact .inr ⟨os ++ [o], _, _, _, _, rfl, rfl, hos, hregister,
        .inlined hmem hkept hvalue⟩

theorem geometricNode?_together (property : String) (h : BuildReduces r os b b') :
    Together r os (geometricNode? (r.withInterface .complete) property)
      (geometricNode? (r.withInterface .reduced) property) b b' Same := by
  unfold geometricNode?
  cases geometricProperty? property with
  | none => exact together_pure h rfl
  | some source =>
    obtain ⟨nodeDef, category, type, index?⟩ := source
    refine together_get ?_
    rw [h.built]
    cases Ordered.get? (geometricKey property) b.built with
    | some index => exact together_pure h rfl
    | none =>
      simp only [Request.withInterface_registry, Request.withInterface_target]
      cases r.registry.find? nodeDef r.options.target with
      | none => exact together_pure h rfl
      | some reader =>
        refine (freshName_together _ h).bind ?_
        rintro os₁ _ name b₁ b₁' - h₁ rfl
        have hnode : NodeReduces r os₁
            { name, path := geometricKey property, category, nodeDef, type
              inputs := (index?.map indexInput).toList, code? := some (.geometry reader) }
            { name, path := geometricKey property, category, nodeDef, type
              inputs := (index?.map indexInput).toList, code? := some (.geometry reader) } := by
          refine ⟨rfl, ?_⟩
          cases index? with
          | none => exact .nil
          | some index => exact .cons (.other fun _ hv => by cases hv) .nil
        refine (pushNode_together hnode h₁).bind ?_
        rintro os₂ _ index b₂ b₂' - h₂ rfl
        exact (recordBuilt_together _ index h₂).bind fun _ _ _ _ _ _ h₃ _ => together_pure h₃ rfl

theorem buildOwnInput_together {inst : Instance Nat} {nodeDef defInput : Element}
    {nodeName nodePath : String} (hinst : InstanceAt r nodePath inst nodeDef)
    (hinput : defInput ∈ nodeDef.valueElements) (h : BuildReduces r os b b') :
    Together r os (buildOwnInput (r.withInterface .complete) inst nodeName nodePath defInput)
      (buildOwnInput (r.withInterface .reduced) inst nodeName nodePath defInput) b b'
      fun os₁ => InputReduces r os₁ nodeName nodePath := by
  have hfind : Together r os
      ((inst.property? defInput).elim (pure none) (geometricNode? (r.withInterface .complete)))
      ((inst.property? defInput).elim (pure none) (geometricNode? (r.withInterface .reduced)))
      b b' Same := by
    cases inst.property? defInput with
    | none => exact together_pure h rfl
    | some property => exact geometricNode?_together property h
  refine hfind.bind ?_
  rintro os₁ _ found? b₁ b₁' - h₁ rfl
  cases found? with
  | some index => exact together_pure h₁ (.of_connection rfl)
  | none => exact boundInput_together hinst hinput h₁

/-- Two references of an input of an instance go to the same place, in scopes that are related, or
to inputs of which copies are related. -/
inductive ReferenceReduces (r : Request) (os : List Registration) (node path : String)
    (defInput : Element) : Reference → Reference → Prop
  | node {s s' : Scope} {name : String} (hscope : ScopeReduces r os s s') :
      ReferenceReduces r os node path defInput (.node s name) (.node s' name)
  | outer {i i' : ShaderInput}
      (hcopy : InputReduces r os node path
        { i with name := defInput.name, type := .ofName defInput.typeName }
        { i' with name := defInput.name, type := .ofName defInput.typeName }) :
      ReferenceReduces r os node path defInput (.outer i) (.outer i')
  | nothing : ReferenceReduces r os node path defInput .nothing .nothing

theorem find?_reduces {node path : String} {is is' : List ShaderInput}
    (h : List.Forall₂ (InputReduces r os node path) is is') (name : String) :
    Option.Rel (InputReduces r os node path) (is.find? (·.name = name))
      (is'.find? (·.name = name)) := by
  induction h with
  | nil => exact .none
  | cons hinput _ ih =>
    rw [List.find?_cons, List.find?_cons, hinput.name_eq]
    split
    · exact .some hinput
    · exact ih

theorem ScopeReduces.follow_interface {s s' : Scope} {name path inputName : String}
    {inst : Instance Nat} {nodeDef defInput : Element} (h : ScopeReduces r os s s')
    (hinst : InstanceAt r path inst nodeDef) (hinput : defInput ∈ nodeDef.valueElements)
    (hlink : inst.link r.document s.graph defInput = .interface inputName) :
    ReferenceReduces r os name path defInput (s.follow (.interface inputName))
      (s'.follow (.interface inputName)) := by
  have hinterface := h.interface
  unfold Scope.follow Scope.outerInput?
  generalize s.interface? = is? at hinterface ⊢
  generalize s'.interface? = is'? at hinterface ⊢
  cases hinterface with
  | none => exact .nothing
  | @some outer outerPath outerInst outerDef is is' houter hgraph hinputs =>
    have hfind := find?_reduces hinputs inputName
    have hname (i : ShaderInput) (hi : is.find? (·.name = inputName) = some i) :
        i.name = inputName := by
      simpa using List.find?_some hi
    simp only [Option.bind_some]
    generalize is.find? _ = i? at hfind hname ⊢
    generalize is'.find? _ = i'? at hfind ⊢
    cases hfind with
    | none => exact .nothing
    | some hcopied =>
      obtain rfl := hname _ rfl
      exact .outer (.copied hinst hinput hlink houter hgraph hcopied)

theorem ScopeReduces.follow {s s' : Scope} {name path : String} {inst : Instance Nat}
    {nodeDef defInput : Element} (h : ScopeReduces r os s s')
    (hinst : InstanceAt r path inst nodeDef) (hinput : defInput ∈ nodeDef.valueElements) :
    ReferenceReduces r os name path defInput
      (s.follow (inst.link r.document s.graph defInput))
      (s'.follow (inst.link r.document s'.graph defInput)) := by
  rw [h.graph]
  cases hlink : inst.link r.document s.graph defInput with
  | node target => exact .node h
  | output graph target => exact .node ⟨rfl, h.keyPrefix, h.namePrefix, .none⟩
  | interface inputName => exact h.follow_interface hinst hinput hlink
  | nothing => exact .nothing

/-- Two walks go side by side to the node with a name, in scopes that are related. -/
def WalksTogether (r : Request) (walk walk' : Walk) : Prop :=
  ∀ ⦃os s s' b b'⦄ (name : String) (isRoot : Bool), ScopeReduces r os s s' →
    BuildReduces r os b b' → Together r os (walk s name isRoot) (walk' s' name isRoot) b b' Same

section Walk

variable {walk walk' : Walk} {s s' : Scope} (hwalk : WalksTogether r walk walk')

include hwalk

theorem buildInput_together {inst : Instance Nat} {nodeDef defInput : Element}
    {nodeName nodePath : String} (hinst : InstanceAt r nodePath inst nodeDef)
    (hinput : defInput ∈ nodeDef.valueElements) (hscope : ScopeReduces r os s s')
    (h : BuildReduces r os b b') :
    Together r os
      (buildInput (r.withInterface .complete) walk s inst nodeName nodePath defInput)
      (buildInput (r.withInterface .reduced) walk' s' inst nodeName nodePath defInput) b b'
      fun os₁ => InputReduces r os₁ nodeName nodePath := by
  unfold buildInput
  cases hadded : inst.connection? defInput.name with
  | some index =>
    simp only [hadded]
    exact together_pure h (.of_connection rfl)
  | none =>
    simp only [hadded]
    have hreference : ReferenceReduces r os nodeName nodePath defInput
        (s.follow (inst.link (r.withInterface .complete).document s.graph defInput))
        (s'.follow (inst.link (r.withInterface .reduced).document s'.graph defInput)) :=
      hscope.follow hinst hinput
    generalize s.follow _ = reference at hreference ⊢
    generalize s'.follow _ = reference' at hreference ⊢
    cases hreference with
    | node htarget =>
      refine (hwalk _ false htarget h).bind ?_
      rintro os₁ _ index b₁ b₁' - h₁ rfl
      exact together_pure h₁ (.of_connection rfl)
    | outer hcopy => exact together_pure h hcopy
    | nothing => exact buildOwnInput_together hinst hinput h

theorem buildInputs_together {inst : Instance Nat} {nodeDef : Element} {nodeName nodePath : String}
    (hinst : InstanceAt r nodePath inst nodeDef) (hscope : ScopeReduces r os s s')
    (h : BuildReduces r os b b') :
    Together r os
      (buildInputs (r.withInterface .complete) walk s inst nodeDef nodeName nodePath)
      (buildInputs (r.withInterface .reduced) walk' s' inst nodeDef nodeName nodePath) b b'
      fun os₁ => List.Forall₂ (InputReduces r os₁ nodeName nodePath) :=
  together_mapM (fun hos hinput => hinput.mono hos) h fun _ hinput _ _ _ hos h₁ =>
    buildInput_together hwalk hinst hinput (hscope.mono hos) h₁

/-! ## Nodes -/

theorem addNode_together {p : Plan} {name : String} {inputs inputs' : List ShaderInput}
    (hinst : InstanceAt r p.path p.inst p.nodeDef)
    (hinputs : List.Forall₂ (InputReduces r os name p.path) inputs inputs')
    (h : BuildReduces r os b b') :
    Together r os (addNode (r.withInterface .complete) walk { p with name, inputs })
      (addNode (r.withInterface .reduced) walk' { p with scope := s', name, inputs := inputs' })
      b b' Same := by
  have hnode (code? : Option NodeCode) : NodeReduces r os
      (Draft.node { p with name, inputs } code?)
      (Draft.node { p with scope := s', name, inputs := inputs' } code?) := ⟨rfl, hinputs⟩
  have himpl (interface : ShaderInterface) :
      implementationOf (r.withInterface interface) p.nodeDef.name =
        implementationOf r p.nodeDef.name := rfl
  unfold addNode
  simp only [himpl]
  cases hcode : implementationOf r p.nodeDef.name with
  | error cause =>
    simp only
    split
    · exact together_throw
    · exact pushNode_together (hnode none) h
  | ok impl =>
    cases impl with
    | inl code => exact pushNode_together (hnode (some code)) h
    | inr graph =>
      simp only [Request.withInterface_document]
      cases outputNode? r.document graph "" with
      | none => exact pushNode_together (hnode none) h
      | some nodeName =>
        have hinner : ScopeReduces r os (Draft.innerScope { p with name, inputs } graph)
            (Draft.innerScope { p with scope := s', name, inputs := inputs' } graph) :=
          ⟨rfl, rfl, rfl, .some hinst hcode hinputs⟩
        exact hwalk nodeName p.isRoot hinner h

theorem buildPlan_together {p : Plan} (hinst : InstanceAt r p.path p.inst p.nodeDef)
    (hscope : ScopeReduces r os p.scope s') (h : BuildReduces r os b b') :
    Together r os (buildPlan (r.withInterface .complete) walk p)
      (buildPlan (r.withInterface .reduced) walk' { p with scope := s' }) b b' Same := by
  unfold buildPlan Plan.draft
  simp only [bind_assoc, pure_bind]
  refine (freshName_together p.base h).bind ?_
  rintro os₁ _ name b₁ b₁' hos₁ h₁ rfl
  refine (buildInputs_together hwalk hinst (hscope.mono hos₁) h₁).bind ?_
  rintro os₂ inputs inputs' b₂ b₂' - h₂ hinputs
  exact addNode_together hwalk hinst hinputs h₂

/-- The conversion after a node, which depends on the types of its inputs only. -/
theorem convertColor_together {e : Element} {path : String} (index : Nat)
    (helement : r.document.element? path = some e) (hscope : ScopeReduces r os s s')
    (h : BuildReduces r os b b') :
    Together r os (convertColor (r.withInterface .complete) walk s e index path)
      (convertColor (r.withInterface .reduced) walk' s' e index path) b b' Same := by
  unfold convertColor
  refine together_get ?_
  have hnodes : Option.Rel (NodeReduces r os) b.nodes[index]? b'.nodes[index]? := by
    have hall := h.nodes
    generalize b.nodes = ns at hall ⊢
    generalize b'.nodes = ns' at hall ⊢
    induction hall generalizing index with
    | nil => exact .none
    | cons hnode _ ih =>
      cases index with
      | zero => exact .some hnode
      | succ index => exact ih index
  generalize b.nodes[index]? = n? at hnodes ⊢
  generalize b'.nodes[index]? = n'? at hnodes ⊢
  cases hnodes with
  | none => exact together_pure h rfl
  | @some n n' hnode =>
    have hname : n'.name = n.name := by rw [hnode.same]
    have htype : n'.type = n.type := by rw [hnode.same]
    have hconversion (interface : ShaderInterface) (types : List ValueType) (type : ValueType) :
        conversionOf? (r.withInterface interface) e types type = conversionOf? r e types type := rfl
    simp only [hnode.types_eq, htype, hconversion]
    cases hdef : conversionOf? r e (n.inputs.map (·.type)) n.type with
    | none => exact together_pure h rfl
    | some nodeDef =>
      have hplan : Plan.ofConversion s' n' index nodeDef path =
          { Plan.ofConversion s n index nodeDef path with scope := s' } := by
        unfold Plan.ofConversion
        rw [hname, htype, hscope.keyPrefix]
      simp only [hplan]
      exact buildPlan_together hwalk (.conversion rfl helement hdef) hscope h

theorem buildElement_together {e : Element} {key path : String} (isRoot : Bool)
    (helement : r.document.element? path = some e) (hscope : ScopeReduces r os s s')
    (h : BuildReduces r os b b') :
    Together r os (buildElement (r.withInterface .complete) walk s e key path isRoot)
      (buildElement (r.withInterface .reduced) walk' s' e key path isRoot) b b' Same := by
  unfold buildElement
  simp only [Request.withInterface_document]
  cases hdef : r.document.nodeDefOfNode? e with
  | some nodeDef =>
    have hplan : Plan.ofNode s' e nodeDef key path isRoot =
        { Plan.ofNode s e nodeDef key path isRoot with scope := s' } := by
      unfold Plan.ofNode
      rw [hscope.namePrefix]
    simp only [buildDefinedNode, hplan]
    refine (buildPlan_together hwalk (.node helement hdef) hscope h).bind ?_
    rintro os₁ _ index b₁ b₁' hos₁ h₁ rfl
    exact convertColor_together hwalk index helement (hscope.mono hos₁) h₁
  | none =>
    simp only [buildUndefinedNode]
    split
    · exact together_throw
    · rw [hscope.namePrefix]
      refine (freshName_together _ h).bind ?_
      rintro os₁ _ name b₁ b₁' - h₁ rfl
      exact pushNode_together ⟨rfl, .nil⟩ h₁

/-- One step of the walk keeps two builds together if the walks on from it do. -/
theorem buildNodeWith_together :
    WalksTogether r (buildNodeWith (r.withInterface .complete) walk)
      (buildNodeWith (r.withInterface .reduced) walk') := by
  intro os s s' b b' name isRoot hscope h
  have hpath : s'.pathOf name = s.pathOf name := by
    unfold Scope.pathOf
    rw [hscope.graph]
  have hkey : s'.keyOf name = s.keyOf name := by
    unfold Scope.keyOf
    rw [hpath, hscope.keyPrefix]
  unfold buildNodeWith
  simp only [hpath, hkey]
  refine together_get ?_
  rw [h.built, h.inProgress]
  cases Ordered.get? (s.keyOf name) b.built with
  | some index => exact together_pure h rfl
  | none =>
    simp only
    split
    · exact together_throw
    · unfold buildNewNode
      refine (beginNode_together _ h).bind ?_
      rintro os₁ _ _ b₁ b₁' hos₁ h₁ -
      simp only [Request.withInterface_document]
      cases helement : r.document.element? (s.pathOf name) with
      | none => exact together_throw
      | some e =>
        refine (buildElement_together hwalk isRoot helement (hscope.mono hos₁) h₁).bind ?_
        rintro os₂ _ index b₂ b₂' - h₂ rfl
        refine (endNode_together _ h₂).bind ?_
        rintro os₃ _ _ b₃ b₃' - h₃ -
        refine (recordBuilt_together _ index h₃).bind ?_
        rintro os₄ _ _ b₄ b₄' - h₄ -
        exact together_pure h₄ rfl

end Walk

/-! ## Whole builds -/

/-- Walks up to any depth keep two builds together, by induction on the depth. -/
theorem buildNode_together (depth : Nat) :
    WalksTogether r (buildNode (r.withInterface .complete) depth)
      (buildNode (r.withInterface .reduced) depth) := by
  induction depth with
  | zero => exact fun _ _ _ _ _ _ _ _ _ => together_throw
  | succ depth ih => exact buildNodeWith_together ih

theorem ScopeReduces.top (graph : String) : ScopeReduces r os { graph } { graph } :=
  ⟨rfl, rfl, rfl, .none⟩

theorem buildRoot_together {walk walk' : Walk} (hwalk : WalksTogether r walk walk') (path : String)
    (h : BuildReduces r os b b') :
    Together r os (buildRoot (r.withInterface .complete) walk path)
      (buildRoot (r.withInterface .reduced) walk' path) b b' Same := by
  have hdocument (interface : ShaderInterface) :
      (r.withInterface interface).document = r.document := rfl
  unfold buildRoot
  simp only [hdocument]
  cases helement : r.document.element? path with
  | none => exact together_throw
  | some e =>
    simp only
    split
    · cases hdef : r.document.nodeDefOfShaderRef? e with
      | none => exact together_throw
      | some nodeDef =>
        exact buildPlan_together hwalk (.shaderRef helement hdef) (.top "") h
    · split
      · cases (r.document.element? (Document.splitPath path).1).filter
            (·.category = "nodegraph") with
        | none => exact together_throw
        | some graph =>
          cases e.filled? "nodename" with
          | none => exact together_throw
          | some nodeName => exact hwalk nodeName true (.top graph.name) h
      · exact hwalk e.name true (.top _) h

/-- Two graphs are the same but for their uniforms and the bindings that read them. Those of the
first are asked for by the parameters of the complete interface, those of the second by the ones
that are kept. -/
structure GraphReduces (r : Request) (os : List Registration) (g g' : ShaderGraph) : Prop where
  name : g'.name = g.name
  root : g'.root = g.root
  nodes : List.Forall₂ (NodeReduces r os) g.nodes g'.nodes
  complete : g.uniforms = VariableBlock.addAll {} (os.map (·.parameter.uniform))
  reduced : g'.uniforms = VariableBlock.addAll {} ((os.filter (·.isKept)).map (·.parameter.uniform))
  holds : ∀ o ∈ os, o.Holds r

theorem BuildReduces.graph (h : BuildReduces r os b b') (path : String) (root : Nat) :
    GraphReduces r os (b.graph path root) (b'.graph path root) := by
  refine ⟨rfl, rfl, h.nodes, ?_, ?_, h.holds⟩
  · show VariableBlock.addAll {} (b.parameters.map _) = _
    rw [h.complete, List.map_map]
    rfl
  · show VariableBlock.addAll {} (b'.parameters.map _) = _
    rw [h.reduced, List.map_map]
    rfl

/-- With the complete and with the reduced interface an element has graphs that are the same but for
the inputs that the reduced one writes into the code, or there is a graph with neither, for the same
reason. -/
theorem build_withInterface (r : Request) (path : String) :
    (∃ e, build (r.withInterface .complete) path = .error e ∧
      build (r.withInterface .reduced) path = .error e) ∨
    ∃ os g g', build (r.withInterface .complete) path = .ok g ∧
      build (r.withInterface .reduced) path = .ok g' ∧ GraphReduces r os g g' := by
  have hstart : BuildReduces r [] {} {} :=
    ⟨.nil, rfl, rfl, rfl, rfl, rfl, fun _ ho => by cases ho⟩
  unfold build graphWithin buildWithin
  simp only [Request.withInterface_document, StateT.run]
  rcases buildRoot_together (buildNode_together (depthBound r.document)) path hstart with
    ⟨e, hcomplete, hreduced⟩ | ⟨os, _, root, b, b', hcomplete, hreduced, -, hb, rfl⟩
  · rw [hcomplete, hreduced]
    exact .inl ⟨e, rfl, rfl⟩
  · rw [hcomplete, hreduced]
    exact .inr ⟨os, b.graph path root, b'.graph path root, rfl, rfl, hb.graph path root⟩

end MaterialViewer.Graph
