import Mathlib.Logic.Relation
import MaterialViewer.Proofs.Graph.PlainNames

/-!
# Proofs: what a walk reaches

The places that the builder looks up on its way through a document, told without running it. A site
is a name that is looked up, together with the node graphs that stand in the place of nodes around
it. A job is a node to be built there: it leads to the sites that its inputs refer to, and to the
site behind the output of the node graph that stands in its place.

Whether a conversion between color spaces follows a node depends on the types of the node that is
found, and that node may have been built for another site with the same key. So with the sites
and jobs that are reached goes what nodes the table can hold for a key.
-/

namespace MaterialViewer.Graph

open Relation

/-! ## Sites and jobs -/

/-- A name that is looked up in a node graph. -/
structure Site where
  /-- The node graphs that stand in the place of nodes around the site, the innermost first. -/
  within : List String := []
  /-- What the keys of nodes begin with. -/
  keyPrefix : String := ""
  /-- The path of the node graph in which the name is looked up. -/
  graph : String
  /-- The name. -/
  name : String
deriving DecidableEq

namespace Site

def path (s : Site) : String := Element.joinPath s.graph s.name

def key (s : Site) : String := s.keyPrefix ++ s.path

def ofPlace (p : Place) : Site :=
  { keyPrefix := p.scope.keyPrefix, graph := p.scope.graph, name := p.name }

end Site

/-- How a node is authored, without what an added node is connected to. -/
def Instance.outline {α : Type} : Instance α → Instance Unit
  | node e => .node e
  | shaderRef e => .shaderRef e
  | added connections => .added (connections.map fun connection => (connection.1, ()))

/-- A node to be built: what of its plan decides where the walk goes on. -/
structure Job where
  within : List String
  keyPrefix : String
  graph : String
  key : String
  inst : Instance Unit
  nodeDef : Element
  type : ValueType

def Plan.job (within : List String) (p : Plan) : Job :=
  { within, keyPrefix := p.scope.keyPrefix, graph := p.scope.graph, key := p.key
    inst := p.inst.outline, nodeDef := p.nodeDef, type := p.type }

namespace Job

/-- The job for the node that is authored at a site. -/
def ofNode (s : Site) (e nodeDef : Element) : Job :=
  (Plan.ofNode { graph := s.graph, keyPrefix := s.keyPrefix } e nodeDef s.key s.path false).job
    s.within

/-- The job for the conversion that follows the node at a site. -/
def ofConversion (s : Site) (nodeDef : Element) (type : ValueType) : Job :=
  { within := s.within, keyPrefix := s.keyPrefix, graph := s.graph
    key := s.keyPrefix ++ conversionPath s.path, inst := .added [("in", ())], nodeDef, type }

def ofTreePlan (p : TreePlan) : Job :=
  { within := [], keyPrefix := p.scope.keyPrefix, graph := p.scope.graph, key := p.key
    inst := p.inst.outline, nodeDef := p.nodeDef, type := p.type }

/-- The site that an input of the definition refers to. -/
def inputSite? (d : Document) (j : Job) (defInput : Element) : Option Site :=
  match j.inst.connection? defInput.name with
  | some _ => none
  | none =>
    match j.inst.link d j.graph defInput with
    | .node name => some ⟨j.within, j.keyPrefix, j.graph, name⟩
    | .output graph name => some ⟨j.within, j.keyPrefix, graph, name⟩
    | .interface _ => none
    | .nothing => none

/-- The site behind the output of the node graph that stands in the place of the node. -/
def innerSite? (r : Request) (j : Job) : Option Site :=
  (expansion? r j.nodeDef.name).map fun (graph, name) =>
    ⟨graph :: j.within, j.key ++ ">", graph, name⟩

/-- The sites that a job leads to. -/
def targets (r : Request) (j : Job) : List Site :=
  j.nodeDef.valueElements.filterMap (j.inputSite? r.document) ++ (j.innerSite? r).toList

end Job

/-- The types of a node, on which it depends whether a conversion follows. -/
structure Signature where
  inputs : List ValueType
  type : ValueType

def signatureOf (node : ShaderNode) : Signature := ⟨node.inputs.map (·.type), node.type⟩

/-- The types of the node that is added for a job if nothing stands in its place. -/
def Job.signature (j : Job) : Signature :=
  ⟨j.nodeDef.valueElements.map fun defInput => .ofName defInput.typeName, j.type⟩

/-! ## Reached sites -/

section Reached

variable (r : Request) (path : String)

mutual

/-- The walk for the element with a path looks up a site. -/
inductive Reached : Site → Prop
  | start {p : Place} (hstart : start? r.document path = some (.place p)) : Reached (.ofPlace p)
  | target {owner : Option Site} {j : Job} {s : Site} (hjob : Assigned owner j)
      (htarget : s ∈ j.targets r) : Reached s

/-- A job is done for a site, or for the element itself. -/
inductive Assigned : Option Site → Job → Prop
  | start {p : TreePlan} (hstart : start? r.document path = some (.plan p)) :
      Assigned none (.ofTreePlan p)
  | node {s : Site} {e nodeDef : Element} (hsite : Reached s)
      (helement : r.document.element? s.path = some e)
      (hdef : r.document.nodeDefOfNode? e = some nodeDef) : Assigned (some s) (.ofNode s e nodeDef)
  | conversion {s : Site} {e nodeDef conversion : Element} {sig : Signature} (hsite : Reached s)
      (helement : r.document.element? s.path = some e)
      (hdef : r.document.nodeDefOfNode? e = some nodeDef)
      (hyields : Yields (.ofNode s e nodeDef) sig)
      (hconversion : conversionOf? r e sig.inputs sig.type = some conversion) :
      Assigned (some s) (.ofConversion s conversion sig.type)

/-- A job may end at a node with the given types. -/
inductive Yields : Job → Signature → Prop
  | single {j : Job} (hinner : j.innerSite? r = none) : Yields j j.signature
  | inner {j : Job} {s : Site} {sig : Signature} (hinner : j.innerSite? r = some s)
      (hstored : Stored s.key sig) : Yields j sig

/-- The node that is kept for a key may have the given types. -/
inductive Stored : String → Signature → Prop
  | undefined {s : Site} {e : Element} (hsite : Reached s)
      (helement : r.document.element? s.path = some e)
      (hdef : r.document.nodeDefOfNode? e = none) : Stored s.key ⟨[], .ofName e.typeName⟩
  | node {s : Site} {e nodeDef : Element} {sig : Signature} (hsite : Reached s)
      (helement : r.document.element? s.path = some e)
      (hdef : r.document.nodeDefOfNode? e = some nodeDef)
      (hyields : Yields (.ofNode s e nodeDef) sig)
      (hconversion : conversionOf? r e sig.inputs sig.type = none) : Stored s.key sig
  | conversion {s : Site} {e nodeDef conversion : Element} {sig sig' : Signature}
      (hsite : Reached s) (helement : r.document.element? s.path = some e)
      (hdef : r.document.nodeDefOfNode? e = some nodeDef)
      (hyields : Yields (.ofNode s e nodeDef) sig)
      (hconversion : conversionOf? r e sig.inputs sig.type = some conversion)
      (hyields' : Yields (.ofConversion s conversion sig.type) sig') : Stored s.key sig'
  | geometry {property : String} {source : ShaderNode}
      (hsource : geometricSource? r property = some source) :
      Stored (geometricKey property) (signatureOf source)

end

/-- From one site the walk goes on to another one. -/
def Next (s t : Site) : Prop := ∃ j, Assigned r path (some s) j ∧ t ∈ j.targets r

/-- The implementation of a job can be used: the one of its definition, and if a node graph stands
in its place, also that of the node behind the output. -/
inductive Job.Resolves : Job → Prop
  | single {j : Job} (himpl : ∃ impl, implementationOf r j.nodeDef.name = .ok impl)
      (hinner : j.innerSite? r = none) : Resolves j
  | inner {j : Job} {s : Site} {e nodeDef : Element} (hinner : j.innerSite? r = some s)
      (helement : r.document.element? s.path = some e)
      (hdef : r.document.nodeDefOfNode? e = some nodeDef)
      (hnode : Resolves (.ofNode s e nodeDef)) : Resolves j

/-- There is a node at a site, and its definition and implementation can be used. -/
def Site.Resolves (s : Site) : Prop :=
  ∃ e nodeDef, r.document.element? s.path = some e ∧
    r.document.nodeDefOfNode? e = some nodeDef ∧ (Job.ofNode s e nodeDef).Resolves r

/-- What is drawn for the element with a path has a definition and an implementation. -/
inductive RootResolves : Prop
  | plan {p : TreePlan} (hstart : start? r.document path = some (.plan p))
      (hjob : (Job.ofTreePlan p).Resolves r)
  | place {p : Place} (hstart : start? r.document path = some (.place p))
      (hsite : (Site.ofPlace p).Resolves r)

/-- The element with a path exists and resolves, what follows from it has no cycle, and no node
graph stands within itself. -/
structure Drawable : Prop where
  root : RootResolves r path
  acyclic : ∀ s, Reached r path s → ¬ TransGen (Next r path) s s
  nested : ∀ s, Reached r path s → s.within.Nodup

/-- Nothing that the builder fails on is in the way: the nodes behind the outputs that are followed
exist, and on a way through the document different sites have different keys. -/
structure Unobstructed : Prop where
  behind : ∀ s output, Reached r path s →
    outputNode? r.document s.graph output = some s.name → (r.document.element? s.path).isSome
  separate : ∀ s t, Reached r path s → TransGen (Next r path) s t → s.key = t.key → s = t

end Reached

variable {r : Request} {path : String}

/-! ## Jobs -/

section Outline

variable {α : Type} (inst : Instance α)

theorem outline_input? (name : String) : inst.outline.input? name = inst.input? name := by
  cases inst <;> rfl

theorem outline_link (d : Document) (graph : String) (defInput : Element) :
    inst.outline.link d graph defInput = inst.link d graph defInput := by
  rw [Instance.link, outline_input?, Instance.link]

theorem outline_connection? (name : String) :
    inst.outline.connection? name = (inst.connection? name).map fun _ => () := by
  cases inst with
  | node e => rfl
  | shaderRef e => rfl
  | added connections =>
    show Ordered.get? name (connections.map _) = (Ordered.get? name connections).map _
    induction connections with
    | nil => rfl
    | cons connection rest ih =>
      rw [List.map_cons, Ordered.get?, Ordered.get?, ih]
      split <;> rfl

end Outline

/-- A job has what it looks names up in from its site. -/
theorem Assigned.owner_eq {s : Site} {j : Job} (h : Assigned r path (some s) j) :
    j.within = s.within ∧ j.keyPrefix = s.keyPrefix ∧ j.graph = s.graph := by
  cases h with
  | node _ _ _ => exact ⟨rfl, rfl, rfl⟩
  | conversion _ _ _ _ _ => exact ⟨rfl, rfl, rfl⟩

/-- What is authored for a job is in the document. -/
theorem Assigned.authored {owner : Option Site} {j : Job} (h : Assigned r path owner j) :
    Authored r.document j.inst := by
  cases h with
  | start hstart =>
    obtain ⟨e, he, -, nodeDef, rfl⟩ := start_plan_spec hstart
    exact authored_shaderRef (Document.mem_of_element? he)
  | node _ helement _ => exact authored_node (Document.mem_of_element? helement)
  | conversion _ _ _ _ _ => exact fun _ _ hinput => nomatch hinput

theorem Job.mem_targets {j : Job} {s : Site} :
    s ∈ j.targets r ↔
      (∃ defInput ∈ j.nodeDef.valueElements, j.inputSite? r.document defInput = some s) ∨
        j.innerSite? r = some s := by
  rw [Job.targets, List.mem_append, List.mem_filterMap, Option.mem_toList]

/-- How an input leads to a site. -/
theorem Job.inputSite?_spec {d : Document} {j : Job} {defInput : Element} {s : Site}
    (h : j.inputSite? d defInput = some s) :
    s.within = j.within ∧ s.keyPrefix = j.keyPrefix ∧
      ((s.graph = j.graph ∧ j.inst.link d j.graph defInput = .node s.name) ∨
        j.inst.link d j.graph defInput = .output s.graph s.name) := by
  unfold inputSite? at h
  split at h
  · cases h
  · split at h
    · rename_i hlink
      obtain rfl := Option.some.inj h
      exact ⟨rfl, rfl, .inl ⟨rfl, hlink⟩⟩
    · rename_i hlink
      obtain rfl := Option.some.inj h
      exact ⟨rfl, rfl, .inr hlink⟩
    · cases h
    · cases h

theorem Job.innerSite?_spec {j : Job} {s : Site} (h : j.innerSite? r = some s) :
    expansion? r j.nodeDef.name = some (s.graph, s.name) ∧ s.within = s.graph :: j.within ∧
      s.keyPrefix = j.key ++ ">" := by
  obtain ⟨⟨graph, name⟩, hexpansion, rfl⟩ := Option.map_eq_some_iff.mp h
  exact ⟨hexpansion, rfl, rfl⟩

/-- The names of a site to which an input leads are in the document. -/
theorem Assigned.input_named {owner : Option Site} {j : Job} {defInput : Element} {s : Site}
    (h : Assigned r path owner j) (hinput : j.inputSite? r.document defInput = some s) :
    Named r.document s.name ∧ (s.graph = j.graph ∨ Referenced r.document s.graph) := by
  obtain ⟨-, -, ⟨hgraph, hlink⟩ | hlink⟩ := Job.inputSite?_spec hinput
  · exact ⟨h.authored.named_of_node hlink, .inl hgraph⟩
  · exact (h.authored.named_of_output hlink).imp_right .inr

/-! ## All sites -/

mutual

/-- What holds where the walk starts and is passed on by jobs holds for all sites. -/
theorem Reached.induction {P : Site → Prop}
    (hstart : ∀ p, start? r.document path = some (.place p) → P (.ofPlace p))
    (htarget : ∀ owner j s, Assigned r path owner j → (∀ t ∈ owner, P t) → s ∈ j.targets r → P s) :
    ∀ {s : Site}, Reached r path s → P s
  | _, .start hplace => hstart _ hplace
  | _, .target hjob hmem => htarget _ _ _ hjob (hjob.owner_induction hstart htarget) hmem

theorem Assigned.owner_induction {P : Site → Prop}
    (hstart : ∀ p, start? r.document path = some (.place p) → P (.ofPlace p))
    (htarget : ∀ owner j s, Assigned r path owner j → (∀ t ∈ owner, P t) → s ∈ j.targets r → P s) :
    ∀ {owner : Option Site} {j : Job}, Assigned r path owner j → ∀ s ∈ owner, P s
  | _, _, .start _, _, hs => nomatch hs
  | _, _, .node hsite _ _, _, hs => Option.some.inj hs ▸ hsite.induction hstart htarget
  | _, _, .conversion hsite _ _ _ _, _, hs => Option.some.inj hs ▸ hsite.induction hstart htarget

end

/-- All sites that are reached exist. Only those behind outputs can be missing, since the builder
asks for a node before it follows a reference to it. -/
theorem Reached.isSome (hroot : RootResolves r path) (hfree : Unobstructed r path) {s : Site}
    (h : Reached r path s) : (r.document.element? s.path).isSome := by
  cases h with
  | @start p hstart =>
    cases hroot with
    | plan hstart' _ => cases hstart.symm.trans hstart'
    | place hstart' hsite =>
      obtain rfl := Start.place.inj (Option.some.inj (hstart.symm.trans hstart'))
      obtain ⟨e, -, helement, -⟩ := hsite
      rw [helement]
      rfl
  | @target owner j _ hjob htarget =>
    rcases Job.mem_targets.mp htarget with ⟨defInput, -, hinput⟩ | hinner
    · obtain ⟨-, -, ⟨hgraph, hlink⟩ | hlink⟩ := Job.inputSite?_spec hinput
      · obtain ⟨authored, -, heq⟩ := exists_linkOf (by rw [hlink]; exact nofun)
        rw [Site.path, hgraph]
        exact (linkOf_node (heq.symm.trans hlink)).2
      · obtain ⟨authored, -, heq⟩ := exists_linkOf (by rw [hlink]; exact nofun)
        obtain ⟨-, output, houtput⟩ := linkOf_output (heq.symm.trans hlink)
        exact hfree.behind s output (.target hjob htarget) houtput
    · have hexpansion := (Job.innerSite?_spec hinner).1
      exact hfree.behind s "" (.target hjob htarget) (expansion?_eq_some hexpansion).2

/-! ## Listing the sites

If no color space is declared, all sites that are reached can be listed and checked. -/

/-- The job for the node that is authored at a site. -/
def Site.job? (r : Request) (s : Site) : Option Job :=
  (r.document.element? s.path).bind fun e =>
    (r.document.nodeDefOfNode? e).map (Job.ofNode s e)

/-- The sites to which the node that is authored at a site leads. -/
def Site.targets (r : Request) (s : Site) : List Site := ((s.job? r).map (·.targets r)).getD []

/-- The node that is authored at a site is followed whatever colors there are. -/
theorem Next.of_mem_targets {s t : Site} (hs : Reached r path s) (ht : t ∈ s.targets r) :
    Next r path s t := by
  unfold Site.targets at ht
  cases hjob : s.job? r with
  | none =>
    rw [hjob] at ht
    cases ht
  | some j =>
    rw [hjob] at ht
    obtain ⟨e, helement, hjob⟩ := Option.bind_eq_some_iff.mp hjob
    obtain ⟨nodeDef, hdef, rfl⟩ := Option.map_eq_some_iff.mp hjob
    exact ⟨_, .node hs helement hdef, ht⟩

/-- All sites that are reached are in a list, each before those to which it leads. -/
structure Listed (r : Request) (path : String) (sites : List Site) : Prop where
  colors : ∀ e ∈ r.document.root.preorder, ColorSpace.declared? r.document e = none
  start : ∃ p, start? r.document path = some (.place p) ∧ .ofPlace p ∈ sites
  closed : ∀ s ∈ sites, ∀ t ∈ s.targets r, t ∈ sites ∧ sites.idxOf s < sites.idxOf t

section Listed

variable {sites : List Site} {s t : Site}

theorem conversionOf?_eq_none {e : Element} (inputs : List ValueType) (type : ValueType)
    (h : ColorSpace.declared? r.document e = none) : conversionOf? r e inputs type = none := by
  rw [conversionOf?, h, Option.bind_none, ite_self]

theorem Listed.mem_targets {j : Job} (h : Listed r path sites) (hjob : Assigned r path (some s) j)
    (ht : t ∈ j.targets r) : t ∈ s.targets r := by
  cases hjob with
  | node _ helement hdef =>
    rw [Site.targets, Site.job?, helement, Option.bind_some, hdef]
    exact ht
  | conversion _ helement _ _ hconversion =>
    have hnone := h.colors _ (Document.mem_of_element? helement)
    cases (conversionOf?_eq_none _ _ hnone).symm.trans hconversion

theorem Listed.mem (h : Listed r path sites) (hs : Reached r path s) : s ∈ sites := by
  obtain ⟨p, hstart, hp⟩ := h.start
  refine hs.induction (fun q hq => ?_) fun owner j t hjob howner ht => ?_
  · obtain rfl := Start.place.inj (Option.some.inj (hstart.symm.trans hq))
    exact hp
  · cases owner with
    | none =>
      cases hjob with
      | start hplan => cases hstart.symm.trans hplan
    | some u => exact (h.closed u (howner u rfl) t (h.mem_targets hjob ht)).1

theorem Listed.lt_of_transGen (h : Listed r path sites) (hway : TransGen (Next r path) s t)
    (hs : s ∈ sites) : t ∈ sites ∧ sites.idxOf s < sites.idxOf t := by
  induction hway with
  | single hnext =>
    obtain ⟨j, hjob, ht⟩ := hnext
    exact h.closed s hs _ (h.mem_targets hjob ht)
  | tail _ hnext ih =>
    obtain ⟨j, hjob, ht⟩ := hnext
    obtain ⟨hmem, hlt⟩ := h.closed _ ih.1 _ (h.mem_targets hjob ht)
    exact ⟨hmem, Nat.lt_trans ih.2 hlt⟩

theorem Listed.drawable (h : Listed r path sites) (hroot : RootResolves r path)
    (hnested : ∀ s ∈ sites, s.within.Nodup) : Drawable r path :=
  ⟨hroot, fun _ hs hway => Nat.lt_irrefl _ (h.lt_of_transGen hway (h.mem hs)).2,
    fun s hs => hnested s (h.mem hs)⟩

theorem Listed.unobstructed (h : Listed r path sites)
    (hpresent : ∀ s ∈ sites, (r.document.element? s.path).isSome)
    (hkeys : ∀ s ∈ sites, ∀ t ∈ sites, s.key = t.key → s = t) : Unobstructed r path := by
  refine ⟨fun s _ hs _ => hpresent s (h.mem hs), fun s t hs hway hkey => ?_⟩
  have ht := (h.lt_of_transGen hway (h.mem hs)).1
  exact hkeys s (h.mem hs) t ht hkey

end Listed

end MaterialViewer.Graph
