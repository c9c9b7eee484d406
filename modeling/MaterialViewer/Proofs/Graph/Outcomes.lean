import MaterialViewer.Proofs.Graph.Ways

/-!
# Proofs: how the walk through a document can end

The walk is followed with the sites on the way to it: they are the nodes in progress. Each step ends
well or with an error that is foreseen. A missing node is an error, and so is a site on the way with
the key of an earlier one; that the depth does not suffice is none, since the keys of the sites on
the way differ, and their number bounds the depth. What is drawn has to resolve, unless an error
because of that is foreseen as well.

Which errors are foreseen is a parameter. With none at all, the walk succeeds.
-/

namespace MaterialViewer.Graph

open Relation

variable {α β : Type} {E : GenerationError → Prop} {b : Build} {r : Request} {path : String}
  {ss : List Site} {walk : Walk}

/-! ## Steps that come to an end -/

/-- A step comes to an end: with a result and a build that are as told, or with an error that is
allowed. -/
def Ends (E : GenerationError → Prop) (m : BuildM α) (b : Build) (Q : α → Build → Prop) : Prop :=
  (∃ a b', m b = .ok (a, b') ∧ Q a b') ∨ ∃ e, m b = .error e ∧ E e

section Ends

variable {m : BuildM α} {f : α → BuildM β} {Q Q' : α → Build → Prop} {P : β → Build → Prop}

theorem Ends.mono (h : Ends E m b Q) (himp : ∀ a b', Q a b' → Q' a b') : Ends E m b Q' := by
  rcases h with ⟨a, b', hm, hQ⟩ | herror
  · exact .inl ⟨a, b', hm, himp a b' hQ⟩
  · exact .inr herror

theorem ends_pure {a : α} (h : Q a b) : Ends E (pure a) b Q := .inl ⟨a, b, rfl, h⟩

theorem ends_throw {e : GenerationError} (h : E e) : Ends E (throw e : BuildM α) b Q :=
  .inr ⟨e, rfl, h⟩

theorem Ends.bind (h : Ends E m b Q) (hf : ∀ a b', Q a b' → Ends E (f a) b' P) :
    Ends E (m >>= f) b P := by
  rcases h with ⟨a, b₁, hm, hQ⟩ | ⟨e, hm, he⟩
  · rw [Ends, bind_of_ok hm]
    exact hf a b₁ hQ
  · exact .inr ⟨e, bind_of_error hm, he⟩

theorem ends_get {f : Build → BuildM β} (h : Ends E (f b) b P) : Ends E (get >>= f) b P := h

theorem ends_modifyGet {f : Build → α × Build} (h : Q (f b).1 (f b).2) :
    Ends E (modifyGet f) b Q := .inl ⟨(f b).1, (f b).2, rfl, h⟩

theorem ends_mapM {γ : Type} {R : γ → α → Prop} {I : Build → Prop} {f : γ → BuildM α} {xs : List γ}
    (h : I b) (hf : ∀ x ∈ xs, ∀ b, I b → Ends E (f x) b fun a b' => R x a ∧ I b') :
    Ends E (xs.mapM f) b fun as b' => List.Forall₂ R xs as ∧ I b' := by
  induction xs generalizing b with
  | nil => exact ends_pure ⟨.nil, h⟩
  | cons x rest ih =>
    rw [List.mapM_cons]
    refine (hf x List.mem_cons_self b h).bind ?_
    rintro a b₁ ⟨hR, hI⟩
    refine (ih hI fun y hy => hf y (List.mem_cons_of_mem x hy)).bind ?_
    rintro as b₂ ⟨hRs, hI'⟩
    exact ends_pure ⟨.cons hR hRs, hI'⟩

end Ends

/-! ## The build on a way -/

/-- There is a node at an index, and its types are as told. -/
def Signed (nodes : List ShaderNode) (index : Nat) (P : Signature → Prop) : Prop :=
  ∃ node, nodes[index]? = some node ∧ P (signatureOf node)

section Signed

variable {nodes : List ShaderNode} {node : ShaderNode} {index : Nat} {P P' : Signature → Prop}

theorem Signed.mono (h : Signed nodes index P) (himp : ∀ sig, P sig → P' sig) :
    Signed nodes index P' := by
  obtain ⟨node, hnode, hP⟩ := h
  exact ⟨node, hnode, himp _ hP⟩

theorem Signed.push (h : Signed nodes index P) : Signed (nodes ++ [node]) index P := by
  obtain ⟨node, hnode, hP⟩ := h
  have hlt := (List.getElem?_eq_some_iff.mp hnode).1
  exact ⟨node, (List.getElem?_append_left hlt).trans hnode, hP⟩

theorem signed_new (h : P (signatureOf node)) : Signed (nodes ++ [node]) nodes.length P :=
  ⟨node, List.getElem?_concat_length, h⟩

end Signed

/-- A build on the way to the first of several sites: the nodes in progress are those of the sites,
which exist and have different keys, and what is kept for keys is as the document says. -/
structure Ready (r : Request) (path : String) (ss : List Site) (b : Build) : Prop where
  stored : ∀ key index, Ordered.get? key b.built = some index →
    Signed b.nodes index (Stored r path key)
  progress : b.inProgress = ss.map (·.key)
  present : ∀ s ∈ ss, (r.document.element? s.path).isSome
  apart : (ss.map (·.key)).Nodup

theorem Ready.empty : Ready r path [] {} := ⟨nofun, rfl, nofun, .nil⟩

theorem Ready.push {node : ShaderNode} (h : Ready r path ss b) :
    Ready r path ss { b with nodes := b.nodes ++ [node] } :=
  ⟨fun key index hget => (h.stored key index hget).push, h.progress, h.present, h.apart⟩

theorem Ready.record {key : String} {index : Nat} (h : Ready r path ss b)
    (hnode : Signed b.nodes index (Stored r path key)) :
    Ready r path ss { b with built := Ordered.put key index b.built } := by
  refine ⟨fun key' index' hget => ?_, h.progress, h.present, h.apart⟩
  by_cases heq : key' = key
  · subst heq
    obtain rfl := Option.some.inj ((Ordered.get?_put_self _ _ _).symm.trans hget)
    exact hnode
  · exact h.stored key' index' ((Ordered.get?_put_of_ne heq _ _).symm.trans hget)

theorem freshName_ends (base : String) (h : Ready r path ss b) :
    Ends E (freshName base) b fun _ => Ready r path ss :=
  ends_modifyGet ⟨h.stored, h.progress, h.present, h.apart⟩

theorem pushNode_ends {node : ShaderNode} {P : Signature → Prop} (h : Ready r path ss b)
    (hnode : P (signatureOf node)) :
    Ends E (pushNode node) b fun index b' => Ready r path ss b' ∧ Signed b'.nodes index P :=
  ends_modifyGet ⟨h.push, signed_new hnode⟩

theorem beginNode_ends {s : Site} (h : Ready r path ss b)
    (hpresent : (r.document.element? s.path).isSome) (hnew : s.key ∉ b.inProgress) :
    Ends E (beginNode s.key) b fun _ => Ready r path (s :: ss) := by
  refine ends_modifyGet ⟨h.stored, ?_, List.forall_mem_cons.mpr ⟨hpresent, h.present⟩, ?_⟩
  · rw [List.map_cons, ← h.progress]
  · exact List.nodup_cons.mpr ⟨h.progress ▸ hnew, h.apart⟩

theorem endNode_ends {s : Site} {P : List ShaderNode → Prop} (h : Ready r path (s :: ss) b)
    (hnodes : P b.nodes) :
    Ends E (endNode s.key) b fun _ b' => Ready r path ss b' ∧ P b'.nodes := by
  refine ends_modifyGet ⟨⟨h.stored, ?_, fun t ht => h.present t (List.mem_cons_of_mem s ht),
    (List.nodup_cons.mp h.apart).2⟩, hnodes⟩
  show b.inProgress.erase s.key = _
  rw [h.progress, List.map_cons, List.erase_cons_head]

theorem recordBuilt_ends {key : String} {index : Nat} (h : Ready r path ss b)
    (hnode : Signed b.nodes index (Stored r path key)) :
    Ends E (recordBuilt key index) b fun _ b' =>
      Ready r path ss b' ∧ Signed b'.nodes index (Stored r path key) :=
  ends_modifyGet ⟨h.record hnode, hnode⟩

/-! ## Inputs that refer to nothing -/

theorem classify_ends (type : ValueType) (value? : Option Value) (isAuthored : Bool)
    (nodeName inputName nodePath : String) (h : Ready r path ss b) :
    Ends E (classify r type value? isAuthored nodeName inputName nodePath) b fun _ =>
      Ready r path ss := by
  unfold classify
  cases fixedBinding? r type value? isAuthored with
  | some binding => exact ends_pure h
  | none => exact ends_modifyGet ⟨h.stored, h.progress, h.present, h.apart⟩

theorem geometricNode?_ends (property : String) (h : Ready r path ss b) :
    Ends E (geometricNode? r property) b fun _ => Ready r path ss := by
  unfold geometricNode?
  cases hproperty : geometricProperty? property with
  | none => exact ends_pure h
  | some source =>
    obtain ⟨nodeDef, category, type, index?⟩ := source
    refine ends_get ?_
    cases hbuilt : Ordered.get? (geometricKey property) b.built with
    | some index => exact ends_pure h
    | none =>
      cases hreader : r.registry.find? nodeDef r.options.target with
      | none => exact ends_pure h
      | some reader =>
        refine (freshName_ends _ h).bind ?_
        intro name b₁ h₁
        have hsource : geometricSource? r property = some
            ⟨"", geometricKey property, category, nodeDef, type, (index?.map indexInput).toList,
              some (.geometry reader)⟩ := by
          simp [geometricSource?, hproperty, hreader]
        -- the types are the same for every name of the node
        have hstored : Stored r path (geometricKey property)
            ⟨(index?.map indexInput).toList.map (·.type), type⟩ := .geometry hsource
        refine (pushNode_ends h₁ hstored).bind ?_
        rintro index b₂ ⟨h₂, hnode⟩
        exact (recordBuilt_ends h₂ hnode).bind fun _ _ h₃ => ends_pure h₃.1

/-- The type of an input is the one of the definition. -/
def HasTypeOf (defInput : Element) (input : ShaderInput) : Prop :=
  input.type = .ofName defInput.typeName

theorem buildOwnInput_ends (inst : Instance Nat) (nodeName nodePath : String) (defInput : Element)
    (h : Ready r path ss b) :
    Ends E (buildOwnInput r inst nodeName nodePath defInput) b fun input b' =>
      HasTypeOf defInput input ∧ Ready r path ss b' := by
  unfold buildOwnInput
  have hfind : Ends E ((inst.property? defInput).elim (pure none) (geometricNode? r)) b fun _ =>
      Ready r path ss := by
    cases inst.property? defInput with
    | none => exact ends_pure h
    | some property => exact geometricNode?_ends property h
  refine hfind.bind ?_
  intro found? b₁ h₁
  cases found? with
  | some index => exact ends_pure ⟨rfl, h₁⟩
  | none => exact (classify_ends _ _ _ _ _ _ h₁).bind fun _ _ h₂ => ends_pure ⟨rfl, h₂⟩

/-! ## The walk -/

/-- What is drawn resolves, or it is allowed to fail because it does not. -/
def Excused (E : GenerationError → Prop) (resolves : Prop) : Prop :=
  resolves ∨ ∀ path cause, E (.unresolvedRoot path cause)

/-- A walk comes to an end for every site to which a way goes on. -/
def Walks (E : GenerationError → Prop) (r : Request) (path : String) (walk : Walk)
    (ss : List Site) : Prop :=
  ∀ (s : Site) (scope : Scope) (isRoot : Bool) (b : Build), Trail r path (s :: ss) →
    scope.graph = s.graph → scope.keyPrefix = s.keyPrefix → (isRoot → Excused E (s.Resolves r)) →
    Ready r path ss b → Ends E (walk scope s.name isRoot) b fun index b' =>
      Ready r path ss b' ∧ Signed b'.nodes index (Stored r path s.key)

/-- The site of a reference to a node. -/
theorem Plan.inputSite?_eq_some {d : Document} {p : Plan} {within : List String}
    {defInput : Element} {target : Scope} {name : String}
    (hadded : p.inst.connection? defInput.name = none)
    (href : p.scope.follow (p.inst.link d p.scope.graph defInput) = .node target name) :
    (p.job within).inputSite? d defInput = some ⟨within, target.keyPrefix, target.graph, name⟩ := by
  have hnone : (p.job within).inst.connection? defInput.name = none := by
    rw [Plan.job, outline_connection?, hadded]
    rfl
  have hlink : (p.job within).inst.link d (p.job within).graph defInput =
      p.inst.link d p.scope.graph defInput := outline_link p.inst d p.scope.graph defInput
  rw [Job.inputSite?, hnone, hlink]
  cases hcase : p.inst.link d p.scope.graph defInput with
  | node name' =>
    rw [hcase] at href
    obtain ⟨rfl, rfl⟩ := Reference.node.inj href
    rfl
  | output graph name' =>
    rw [hcase] at href
    obtain ⟨rfl, rfl⟩ := Reference.node.inj href
    rfl
  | interface name' =>
    rw [hcase] at href
    simp only [Scope.follow] at href
    split at href <;> cases href
  | nothing =>
    rw [hcase] at href
    cases href

section Plan

variable {p : Plan} {within : List String} (hwalk : Walks E r path walk ss)
  (htrail : Trail r path ss) (hjob : Assigned r path ss.head? (p.job within))

include hwalk htrail hjob

theorem buildInput_ends (nodeName nodePath : String) {defInput : Element}
    (hinput : defInput ∈ p.nodeDef.valueElements) (h : Ready r path ss b) :
    Ends E (buildInput r walk p.scope p.inst nodeName nodePath defInput) b fun input b' =>
      HasTypeOf defInput input ∧ Ready r path ss b' := by
  unfold buildInput
  cases hadded : p.inst.connection? defInput.name with
  | some index =>
    simp only [hadded]
    exact ends_pure ⟨rfl, h⟩
  | none =>
    simp only [hadded]
    cases href : p.scope.follow (p.inst.link r.document p.scope.graph defInput) with
    | node target name =>
      have hsite : (p.job within).inputSite? r.document defInput = some _ :=
        Plan.inputSite?_eq_some hadded href
      have htarget := Job.mem_targets.mpr (.inl ⟨defInput, hinput, hsite⟩)
      have hrun := hwalk _ target false b (htrail.cons hjob htarget) rfl rfl nofun h
      refine hrun.bind ?_
      rintro index b' ⟨h', -⟩
      exact ends_pure ⟨rfl, h'⟩
    | outer outer => exact ends_pure ⟨rfl, h⟩
    | nothing => exact buildOwnInput_ends p.inst nodeName nodePath defInput h

theorem buildInputs_ends (nodeName nodePath : String) (h : Ready r path ss b) :
    Ends E (buildInputs r walk p.scope p.inst p.nodeDef nodeName nodePath) b fun inputs b' =>
      List.Forall₂ HasTypeOf p.nodeDef.valueElements inputs ∧ Ready r path ss b' :=
  ends_mapM h fun _ hinput _ h' => buildInput_ends hwalk htrail hjob nodeName nodePath hinput h'

end Plan

theorem types_of_forall₂ {defInputs : List Element} {inputs : List ShaderInput}
    (h : List.Forall₂ HasTypeOf defInputs inputs) :
    inputs.map (·.type) = defInputs.map fun defInput => .ofName defInput.typeName := by
  induction h with
  | nil => rfl
  | cons hinput _ ih => rw [List.map_cons, List.map_cons, hinput, ih]

/-- Where a node graph stands in the place of a job that resolves, the node behind its output
does. -/
theorem Job.Resolves.inner_resolves {j : Job} {s : Site} (h : j.Resolves r)
    (hinner : j.innerSite? r = some s) : s.Resolves r := by
  cases h with
  | single _ hnone => cases hnone.symm.trans hinner
  | inner hinner' helement hdef hnode =>
    obtain rfl := Option.some.inj (hinner'.symm.trans hinner)
    exact ⟨_, _, helement, hdef, hnode⟩

theorem Job.Resolves.of_code {j : Job} {code : NodeCode}
    (h : implementationOf r j.nodeDef.name = .ok (.inl code)) : j.Resolves r :=
  .single ⟨_, h⟩ (by rw [Job.innerSite?, expansion?, h]; rfl)

theorem Job.Resolves.impl {j : Job} (h : j.Resolves r) :
    ∃ impl, implementationOf r j.nodeDef.name = .ok impl := by
  cases h with
  | single himpl _ => exact himpl
  | inner hinner _ _ _ =>
    exact ⟨_, (expansion?_eq_some (Job.innerSite?_spec hinner).1).1⟩

section Draft

variable {d : Draft} {within : List String}

theorem Draft.innerSite?_eq :
    (d.toPlan.job within).innerSite? r = (expansion? r d.nodeDef.name).map fun (graph, name) =>
      ⟨graph :: within, d.key ++ ">", graph, name⟩ := rfl

/-- A node without a node graph in its place has the types of its definition. -/
theorem Draft.yields_node (htypes : List.Forall₂ HasTypeOf d.nodeDef.valueElements d.inputs)
    (hnone : expansion? r d.nodeDef.name = none) (code? : Option NodeCode) :
    Yields r path (d.toPlan.job within) (signatureOf (d.node code?)) := by
  have hsig : signatureOf (d.node code?) = (d.toPlan.job within).signature :=
    congrArg (Signature.mk · d.type) (types_of_forall₂ htypes)
  rw [hsig]
  exact .single (by rw [Draft.innerSite?_eq, hnone]; rfl)

/-- The walk into the node graph that stands in the place of a node succeeds. -/
theorem inner_ends (hwalk : Walks E r path walk ss) (htrail : Trail r path ss)
    (hjob : Assigned r path ss.head? (d.toPlan.job within))
    (hroot : d.isRoot → Excused E ((d.toPlan.job within).Resolves r)) {graph name : String}
    (hexpansion : expansion? r d.nodeDef.name = some (graph, name)) (h : Ready r path ss b) :
    Ends E (walk (d.innerScope graph) name d.isRoot) b fun index b' => Ready r path ss b' ∧
      Signed b'.nodes index (Yields r path (d.toPlan.job within)) := by
  have hinner : (d.toPlan.job within).innerSite? r =
      some ⟨graph :: within, d.key ++ ">", graph, name⟩ := by
    rw [Draft.innerSite?_eq, hexpansion]
    rfl
  have htrail' := htrail.cons hjob (Job.mem_targets.mpr (.inr hinner))
  have hresolves (hisRoot : d.isRoot) :=
    (hroot hisRoot).imp_left fun hjob => hjob.inner_resolves hinner
  refine (hwalk _ (d.innerScope graph) d.isRoot b htrail' rfl rfl hresolves h).mono ?_
  rintro index b' ⟨h', hstored⟩
  exact ⟨h', hstored.mono fun sig hsig => .inner hinner hsig⟩

theorem addNode_ends (hwalk : Walks E r path walk ss) (htrail : Trail r path ss)
    (hjob : Assigned r path ss.head? (d.toPlan.job within))
    (htypes : List.Forall₂ HasTypeOf d.nodeDef.valueElements d.inputs)
    (hroot : d.isRoot → Excused E ((d.toPlan.job within).Resolves r)) (h : Ready r path ss b) :
    Ends E (addNode r walk d) b fun index b' => Ready r path ss b' ∧
      Signed b'.nodes index (Yields r path (d.toPlan.job within)) := by
  unfold addNode
  cases himpl : implementationOf r d.nodeDef.name with
  | ok impl =>
    cases impl with
    | inl code =>
      have hnone : expansion? r d.nodeDef.name = none := by rw [expansion?, himpl]
      exact pushNode_ends h (Draft.yields_node htypes hnone _)
    | inr graph =>
      simp only
      cases houtput : outputNode? r.document graph "" with
      | none =>
        have hnone : expansion? r d.nodeDef.name = none := by
          rw [expansion?, himpl]
          exact congrArg (Option.map _) houtput
        exact pushNode_ends h (Draft.yields_node htypes hnone _)
      | some name =>
        have hexpansion : expansion? r d.nodeDef.name = some (graph, name) := by
          rw [expansion?, himpl]
          exact congrArg (Option.map _) houtput
        exact inner_ends hwalk htrail hjob hroot hexpansion h
  | error cause =>
    simp only
    split
    · rename_i hisRoot
      rcases hroot hisRoot with hresolves | hexcused
      · obtain ⟨impl, hok⟩ := hresolves.impl
        cases himpl.symm.trans hok
      · exact ends_throw (hexcused _ _)
    · have hnone : expansion? r d.nodeDef.name = none := by rw [expansion?, himpl]
      exact pushNode_ends h (Draft.yields_node htypes hnone _)

end Draft

theorem buildPlan_ends {p : Plan} {within : List String} (hwalk : Walks E r path walk ss)
    (htrail : Trail r path ss) (hjob : Assigned r path ss.head? (p.job within))
    (hroot : p.isRoot → Excused E ((p.job within).Resolves r)) (h : Ready r path ss b) :
    Ends E (buildPlan r walk p) b fun index b' => Ready r path ss b' ∧
      Signed b'.nodes index (Yields r path (p.job within)) := by
  have hdraft : Ends E (p.draft r walk) b fun d b' => d.toPlan = p ∧
      List.Forall₂ HasTypeOf p.nodeDef.valueElements d.inputs ∧ Ready r path ss b' := by
    refine (freshName_ends p.base h).bind ?_
    intro name b₁ h₁
    refine (buildInputs_ends hwalk htrail hjob name p.path h₁).bind ?_
    rintro inputs b₂ ⟨htypes, h₂⟩
    exact ends_pure ⟨rfl, htypes, h₂⟩
  refine hdraft.bind ?_
  rintro d b₁ ⟨rfl, htypes, hready⟩
  exact addNode_ends hwalk htrail hjob htypes hroot hready

/-! ## Nodes of sites -/

section Element

variable {s : Site} {scope : Scope} {e : Element} {isRoot : Bool}
  (hwalk : Walks E r path walk (s :: ss)) (htrail : Trail r path (s :: ss))
  (hgraph : scope.graph = s.graph) (hbegin : scope.keyPrefix = s.keyPrefix)
  (helement : r.document.element? s.path = some e)

include hwalk htrail hgraph hbegin helement

theorem convertColor_ends {nodeDef : Element} {index : Nat}
    (hdef : r.document.nodeDefOfNode? e = some nodeDef) (h : Ready r path (s :: ss) b)
    (hnode : Signed b.nodes index (Yields r path (.ofNode s e nodeDef))) :
    Ends E (convertColor r walk scope e index s.path) b fun index' b' =>
      Ready r path (s :: ss) b' ∧ Signed b'.nodes index' (Stored r path s.key) := by
  have hsite := htrail.reached s List.mem_cons_self
  obtain ⟨node, hget, hyields⟩ := hnode
  refine ends_get ?_
  simp only [hget]
  cases hconversion : conversionOf? r e (node.inputs.map (·.type)) node.type with
  | none => exact ends_pure ⟨h, node, hget, .node hsite helement hdef hyields hconversion⟩
  | some conversion =>
    have hplan : (Plan.ofConversion scope node index conversion s.path).job s.within =
        .ofConversion s conversion node.type := by
      simp only [Plan.job, Plan.ofConversion, Job.ofConversion, hgraph, hbegin]
      rfl
    have hjob : Assigned r path (s :: ss).head? (.ofConversion s conversion node.type) :=
      .conversion hsite helement hdef hyields hconversion
    have hroot (h : (Plan.ofConversion scope node index conversion s.path).isRoot) :
        Excused E ((Job.ofConversion s conversion node.type).Resolves r) :=
      absurd h Bool.false_ne_true
    have hrun := buildPlan_ends hwalk htrail (hplan ▸ hjob) (hplan ▸ hroot) h
    rw [hplan] at hrun
    refine hrun.mono ?_
    rintro index' b' ⟨h', hyields'⟩
    exact ⟨h', hyields'.mono fun sig hsig =>
      .conversion hsite helement hdef hyields hconversion hsig⟩

theorem buildDefinedNode_ends {nodeDef : Element}
    (hdef : r.document.nodeDefOfNode? e = some nodeDef)
    (hroot : isRoot → Excused E ((Job.ofNode s e nodeDef).Resolves r))
    (h : Ready r path (s :: ss) b) :
    Ends E (buildDefinedNode r walk scope e nodeDef s.key s.path isRoot) b fun index b' =>
      Ready r path (s :: ss) b' ∧ Signed b'.nodes index (Stored r path s.key) := by
  have hplan : (Plan.ofNode scope e nodeDef s.key s.path isRoot).job s.within =
      .ofNode s e nodeDef := by
    simp only [Plan.job, Plan.ofNode, Job.ofNode, hgraph, hbegin]
  have hjob : Assigned r path (s :: ss).head? (.ofNode s e nodeDef) :=
    .node (htrail.reached s List.mem_cons_self) helement hdef
  have hrun := buildPlan_ends hwalk htrail (hplan ▸ hjob) (hplan ▸ hroot) h
  rw [hplan] at hrun
  refine hrun.bind ?_
  rintro index b₁ ⟨h₁, hyields⟩
  exact convertColor_ends hwalk htrail hgraph hbegin helement hdef h₁ hyields

theorem buildElement_ends (hroot : isRoot → Excused E (s.Resolves r))
    (h : Ready r path (s :: ss) b) :
    Ends E (buildElement r walk scope e s.key s.path isRoot) b fun index b' =>
      Ready r path (s :: ss) b' ∧ Signed b'.nodes index (Stored r path s.key) := by
  unfold buildElement
  cases hdef : r.document.nodeDefOfNode? e with
  | some nodeDef =>
    have hresolves (hisRoot : isRoot) : Excused E ((Job.ofNode s e nodeDef).Resolves r) := by
      refine (hroot hisRoot).imp_left ?_
      rintro ⟨e', nodeDef', helement', hdef', hnode⟩
      obtain rfl := Option.some.inj (helement.symm.trans helement')
      obtain rfl := Option.some.inj (hdef.symm.trans hdef')
      exact hnode
    exact buildDefinedNode_ends hwalk htrail hgraph hbegin helement hdef hresolves h
  | none =>
    simp only [buildUndefinedNode]
    split
    · rename_i hisRoot
      rcases hroot hisRoot with ⟨e', nodeDef, helement', hdef', -⟩ | hexcused
      · obtain rfl := Option.some.inj (helement.symm.trans helement')
        cases hdef.symm.trans hdef'
      · exact ends_throw (hexcused _ _)
    · refine (freshName_ends _ h).bind ?_
      intro name b₁ h₁
      have hstored : Stored r path s.key ⟨[], .ofName e.typeName⟩ :=
        .undefined (htrail.reached s List.mem_cons_self) helement hdef
      exact pushNode_ends h₁ hstored

end Element

/-! ## The whole walk -/

/-- What is built for a shader reference. -/
theorem buildRoot_plan {p : TreePlan} (hstart : start? r.document path = some (.plan p)) :
    ∃ plan : Plan, plan.job [] = .ofTreePlan p ∧
      buildRoot r walk path = buildPlan r walk plan := by
  obtain ⟨e, helement, hstart⟩ := Option.bind_eq_some_iff.mp hstart
  split at hstart
  · rename_i hcategory
    obtain ⟨nodeDef, hdef, heq⟩ := Option.map_eq_some_iff.mp hstart
    obtain rfl := Start.plan.inj heq
    refine ⟨.ofShaderRef e nodeDef path, rfl, ?_⟩
    simp only [buildRoot, helement, if_pos hcategory, hdef]
  · split at hstart
    · obtain ⟨graph, -, hstart⟩ := Option.bind_eq_some_iff.mp hstart
      obtain ⟨name, -, heq⟩ := Option.map_eq_some_iff.mp hstart
      cases heq
    · cases hstart

/-- What is built for an element that stands for a place. -/
theorem buildRoot_place {p : Place} (hstart : start? r.document path = some (.place p)) :
    p.scope.keyPrefix = "" ∧
      buildRoot r walk path = walk { graph := p.scope.graph } p.name true := by
  obtain ⟨e, helement, hstart⟩ := Option.bind_eq_some_iff.mp hstart
  split at hstart
  · obtain ⟨nodeDef, -, heq⟩ := Option.map_eq_some_iff.mp hstart
    cases heq
  · rename_i href
    split at hstart
    · rename_i houtput
      obtain ⟨graph, hgraph, hstart⟩ := Option.bind_eq_some_iff.mp hstart
      obtain ⟨name, hname, heq⟩ := Option.map_eq_some_iff.mp hstart
      obtain rfl := Start.place.inj heq
      refine ⟨rfl, ?_⟩
      simp only [buildRoot, helement, if_neg href, if_pos houtput, hgraph, hname]
    · rename_i houtput
      obtain rfl := Start.place.inj (Option.some.inj hstart)
      refine ⟨rfl, ?_⟩
      simp only [buildRoot, helement, if_neg href, if_neg houtput]

/-- The errors on the way are foreseen: that a site is missing, and that a site has the key of an
earlier one on the way to it. -/
structure Foreseen (r : Request) (path : String) (E : GenerationError → Prop) : Prop where
  missing : ∀ s, Reached r path s → r.document.element? s.path = none → E (.noElement s.path)
  cycle : ∀ s t, Reached r path s → (r.document.element? s.path).isSome →
    TransGen (Next r path) s t → s.key = t.key → E (.cycle t.path)

section Foreseen

variable (hforeseen : Foreseen r path E)

include hforeseen

theorem buildNewNode_ends {s : Site} {scope : Scope} {isRoot : Bool}
    (hwalk : Walks E r path walk (s :: ss)) (htrail : Trail r path (s :: ss))
    (hgraph : scope.graph = s.graph) (hbegin : scope.keyPrefix = s.keyPrefix)
    (hroot : isRoot → Excused E (s.Resolves r)) (h : Ready r path ss b)
    (hnew : s.key ∉ b.inProgress) :
    Ends E (buildNewNode r walk scope s.key s.path isRoot) b fun index b' =>
      Ready r path ss b' ∧ Signed b'.nodes index (Stored r path s.key) := by
  unfold buildNewNode
  cases helement : r.document.element? s.path with
  | none =>
    have hmissing := hforeseen.missing s (htrail.reached s List.mem_cons_self) helement
    exact (ends_modifyGet (Q := fun _ _ => True) trivial).bind fun _ _ _ => ends_throw hmissing
  | some e =>
    refine (beginNode_ends h (by rw [helement]; rfl) hnew).bind ?_
    intro _ b₁ h₁
    refine (buildElement_ends hwalk htrail hgraph hbegin helement hroot h₁).bind ?_
    rintro index b₂ ⟨h₂, hstored⟩
    refine (endNode_ends h₂ (P := (Signed · index (Stored r path s.key))) hstored).bind ?_
    rintro _ b₃ ⟨h₃, hstored⟩
    exact (recordBuilt_ends h₃ hstored).bind fun _ _ h₄ => ends_pure h₄

/-- The key of a site to which a way goes on is in progress only if an error of it is foreseen. -/
theorem Ready.cycle_foreseen {s : Site} (h : Ready r path ss b) (htrail : Trail r path (s :: ss))
    (hmem : s.key ∈ b.inProgress) : E (.cycle s.path) := by
  rw [h.progress] at hmem
  obtain ⟨t, ht, hkey⟩ := List.mem_map.mp hmem
  have hreached := htrail.reached t (List.mem_cons_of_mem s ht)
  exact hforeseen.cycle t s hreached (h.present t ht) (List.rel_of_pairwise_cons htrail.ways ht)
    hkey

theorem buildNodeWith_walks
    (hwalk : ∀ s, Trail r path (s :: ss) → Walks E r path walk (s :: ss)) :
    Walks E r path (buildNodeWith r walk) ss := by
  intro s scope isRoot b htrail hgraph hbegin hroot h
  have hpath : scope.pathOf s.name = s.path := by rw [Scope.pathOf, hgraph, Site.path]
  have hkey : scope.keyOf s.name = s.key := by rw [Scope.keyOf, hpath, hbegin, Site.key]
  unfold buildNodeWith
  rw [hkey, hpath]
  refine ends_get ?_
  cases hbuilt : Ordered.get? s.key b.built with
  | some index => exact ends_pure ⟨h, h.stored s.key index hbuilt⟩
  | none =>
    simp only
    split
    · rename_i hprogress
      have hmem : s.key ∈ b.inProgress := List.contains_iff_mem.mp hprogress
      exact ends_throw (h.cycle_foreseen hforeseen htrail hmem)
    · rename_i hprogress
      have hnew : s.key ∉ b.inProgress := fun hmem => hprogress (List.contains_iff_mem.mpr hmem)
      exact buildNewNode_ends hforeseen (hwalk s htrail) htrail hgraph hbegin hroot h hnew

variable (hnested : ∀ s, Reached r path s → s.within.Nodup)

include hnested

/-- On every way the depth that is left is enough for the rest of it. -/
theorem buildNode_walks (depth : Nat) (ss : List Site)
    (hdepth : depthBound r.document ≤ ss.length + depth) :
    Walks E r path (buildNode r depth) ss := by
  induction depth generalizing ss with
  | zero =>
    intro s scope isRoot b htrail _ _ _ h
    -- the keys on the way differ, so it is shorter than the whole depth, and some depth is left
    have hlength := htrail.tail.length_lt hnested h.apart
    omega
  | succ depth ih =>
    refine buildNodeWith_walks hforeseen fun s _ => ih (s :: ss) ?_
    rw [List.length_cons]
    omega

theorem buildRoot_ends {depth : Nat} {start : Start} (hdepth : depthBound r.document ≤ depth)
    (hstart : start? r.document path = some start) (hroot : Excused E (RootResolves r path)) :
    Ends E (buildRoot r (buildNode r depth) path) {} fun _ _ => True := by
  have hwalk := buildNode_walks hforeseen hnested depth [] (by simpa using hdepth)
  cases start with
  | plan p =>
    obtain ⟨plan, hplan, hbuild⟩ := buildRoot_plan hstart
    have hassigned : Assigned r path [].head? (plan.job []) := hplan ▸ .start hstart
    have hresolves : Excused E ((plan.job []).Resolves r) := by
      refine hroot.imp_left ?_
      rintro (⟨hstart', hjob⟩ | ⟨hstart', -⟩)
      · obtain rfl := Start.plan.inj (Option.some.inj (hstart.symm.trans hstart'))
        exact hplan ▸ hjob
      · cases hstart.symm.trans hstart'
    rw [hbuild]
    exact (buildPlan_ends hwalk (.nil r path) hassigned (fun _ => hresolves) .empty).mono
      fun _ _ _ => trivial
  | place p =>
    obtain ⟨hbegin, hbuild⟩ := buildRoot_place hstart
    have htrail : Trail r path [.ofPlace p] :=
      ⟨fun s hs => List.mem_singleton.mp hs ▸ .start hstart, List.pairwise_singleton _ _⟩
    have hresolves : Excused E ((Site.ofPlace p).Resolves r) := by
      refine hroot.imp_left ?_
      rintro (⟨hstart', -⟩ | ⟨hstart', hsite⟩)
      · cases hstart.symm.trans hstart'
      · obtain rfl := Start.place.inj (Option.some.inj (hstart.symm.trans hstart'))
        exact hsite
    rw [hbuild]
    exact (hwalk (.ofPlace p) { graph := p.scope.graph } true {} htrail rfl hbegin.symm
      (fun _ => hresolves) .empty).mono fun _ _ _ => trivial

end Foreseen

end MaterialViewer.Graph
