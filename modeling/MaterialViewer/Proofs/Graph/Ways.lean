import Mathlib.Data.List.ProdSigma
import MaterialViewer.Proofs.Graph.Sites

/-!
# Proofs: ways through a document

On the way from what is drawn to what it is computed from, the node graphs in the place of nodes
only get more, and while they stay the same, so does what keys begin with. Two things follow. A way
on which keys differ is shorter than the depth that the builder allows: its sites differ in the
number of node graphs around, in the graph or in the name, and graphs and names are read from the
attributes of elements, but for those with which the way or an inner graph begins. And if names are
plain, different sites on a way have different keys.
-/

namespace MaterialViewer

/-! ## The number of elements -/

namespace Element

mutual

theorem length_preorder : ∀ e : Element, e.preorder.length = e.size
  | ⟨_, _, _, children, _⟩ => by
    rw [preorder, size, List.length_cons, length_preorderAll children]

theorem length_preorderAll : ∀ es : List Element, (preorderAll es).length = sizeAll es
  | [] => rfl
  | e :: es => by
    rw [preorderAll, sizeAll, List.length_append, length_preorder e, length_preorderAll es]

end

end Element

namespace Graph

open Relation

variable {r : Request} {path : String} {s t u : Site}

/-! ## Where sites come from -/

/-- The graph in which a site would be looked up without a reference to another one: the innermost
that stands in the place of a node. -/
def Site.home (outermost : String) (s : Site) : String := s.within.head?.getD outermost

/-- The names that make up a site are in the document, but for those with which the walk starts. -/
structure Site.Located (d : Document) (outermost first : String) (s : Site) : Prop where
  graph : s.graph = s.home outermost ∨ Referenced d s.graph
  name : s.name = first ∨ Named d s.name
  within : ∀ g ∈ s.within, g ∈ d.nodeGraphs.map (·.name)

/-- The graphs of the sites to which a job leads are in the document. -/
structure Job.Located (d : Document) (outermost : String) (j : Job) : Prop where
  graph : j.graph = j.within.head?.getD outermost ∨ Referenced d j.graph
  within : ∀ g ∈ j.within, g ∈ d.nodeGraphs.map (·.name)

section Located

variable {outermost first : String} {j : Job} {owner : Option Site}

theorem Assigned.target_located (h : Assigned r path owner j)
    (hj : j.Located r.document outermost) (htarget : s ∈ j.targets r) :
    s.Located r.document outermost first := by
  rcases Job.mem_targets.mp htarget with ⟨defInput, -, hinput⟩ | hinner
  · obtain ⟨hwithin, -, -⟩ := Job.inputSite?_spec hinput
    obtain ⟨hname, hgraph⟩ := h.input_named hinput
    refine ⟨?_, .inr hname, hwithin ▸ hj.within⟩
    rcases hgraph with hgraph | hreferenced
    · rw [Site.home, hwithin, hgraph]
      exact hj.graph
    · exact .inr hreferenced
  · obtain ⟨hexpansion, hwithin, -⟩ := Job.innerSite?_spec hinner
    obtain ⟨⟨g, hg, -, hname⟩, hnamed⟩ := expansion?_spec hexpansion
    refine ⟨.inl (by rw [Site.home, hwithin]; rfl), .inr hnamed, fun graph hgraph => ?_⟩
    rw [hwithin] at hgraph
    rcases List.mem_cons.mp hgraph with rfl | hgraph
    · exact List.mem_map.mpr ⟨g, hg, hname⟩
    · exact hj.within graph hgraph

theorem Assigned.located (h : Assigned r path owner j)
    (howner : ∀ s ∈ owner, s.Located r.document outermost first)
    (hplan : ∀ p, start? r.document path = some (.plan p) →
      (Job.ofTreePlan p).Located r.document outermost) : j.Located r.document outermost := by
  cases owner with
  | none =>
    cases h with
    | start hstart => exact hplan _ hstart
  | some s =>
    have hs := howner s rfl
    obtain ⟨hwithin, -, hgraph⟩ := h.owner_eq
    exact ⟨hgraph ▸ hwithin ▸ hs.graph, hwithin ▸ hs.within⟩

theorem Reached.located (h : Reached r path s)
    (hplace : ∀ p, start? r.document path = some (.place p) →
      (Site.ofPlace p).Located r.document outermost first)
    (hplan : ∀ p, start? r.document path = some (.plan p) →
      (Job.ofTreePlan p).Located r.document outermost) : s.Located r.document outermost first := by
  refine h.induction hplace fun owner j t hjob howner htarget => ?_
  exact hjob.target_located (hjob.located howner hplan) htarget

/-- What a walk for the element with a path starts with. -/
theorem exists_located (r : Request) (path : String) :
    ∃ outermost first, ∀ s, Reached r path s → s.Located r.document outermost first := by
  cases hstart : start? r.document path with
  | none =>
    refine ⟨"", "", fun s h => h.located ?_ ?_⟩ <;> exact fun p hp => nomatch hstart.symm.trans hp
  | some start =>
    cases start with
    | place p =>
      refine ⟨p.scope.graph, p.name, fun s h => h.located ?_ ?_⟩
      · intro q hq
        obtain rfl := Start.place.inj (Option.some.inj (hstart.symm.trans hq))
        exact ⟨.inl rfl, .inl rfl, nofun⟩
      · exact fun q hq => nomatch hstart.symm.trans hq
    | plan p =>
      refine ⟨"", "", fun s h => h.located ?_ ?_⟩
      · exact fun q hq => nomatch hstart.symm.trans hq
      · intro q hq
        obtain ⟨e, -, -, nodeDef, rfl⟩ := start_plan_spec hq
        exact ⟨.inl rfl, nofun⟩

/-- Without node graphs there are none in the place of nodes. -/
theorem Reached.within_eq_nil (hgraphs : r.document.nodeGraphs = []) (h : Reached r path s) :
    s.within = [] := by
  obtain ⟨outermost, first, hlocated⟩ := exists_located r path
  refine List.eq_nil_iff_forall_not_mem.mpr fun g hg => ?_
  have hmem := (hlocated s h).within g hg
  rw [hgraphs] at hmem
  cases hmem

end Located

/-! ## Ways -/

/-- One site is around another: what stands in the place of nodes around it does so around the other
one. If that is all, their keys begin with the same, else the other one's with another key in
addition. -/
structure Site.Around (s t : Site) : Prop where
  within : s.within <:+ t.within
  keyPrefix : s.within.length = t.within.length → s.keyPrefix = t.keyPrefix
  longer : s.within.length < t.within.length → ∃ rest, t.keyPrefix = s.keyPrefix ++ (rest ++ ">")

theorem Site.Around.trans (h : s.Around t) (h' : t.Around u) : s.Around u := by
  have hle := h.within.length_le
  have hle' := h'.within.length_le
  refine ⟨h.within.trans h'.within, fun hlength => ?_, fun hlength => ?_⟩
  · rw [h.keyPrefix (by omega), h'.keyPrefix (by omega)]
  · rcases Nat.lt_or_eq_of_le hle with hlt | heq
    · obtain ⟨rest, hst⟩ := h.longer hlt
      rcases Nat.lt_or_eq_of_le hle' with hlt' | heq'
      · obtain ⟨rest', htu⟩ := h'.longer hlt'
        refine ⟨rest ++ ">" ++ rest', ?_⟩
        rw [htu, hst]
        simp only [String.append_assoc]
      · exact ⟨rest, h'.keyPrefix heq' ▸ hst⟩
    · exact h.keyPrefix heq ▸ h'.longer (by omega)

/-- The key of a job begins with what keys at its site begin with. -/
theorem Assigned.exists_key_eq {j : Job} (h : Assigned r path (some s) j) :
    ∃ rest, j.key = s.keyPrefix ++ rest := by
  cases h with
  | node _ _ _ => exact ⟨s.path, rfl⟩
  | conversion _ _ _ _ _ => exact ⟨conversionPath s.path, rfl⟩

theorem Next.around (h : Next r path s t) : s.Around t := by
  obtain ⟨j, hjob, htarget⟩ := h
  obtain ⟨hwithin, hbegin, -⟩ := hjob.owner_eq
  rcases Job.mem_targets.mp htarget with ⟨defInput, -, hinput⟩ | hinner
  · obtain ⟨hwithin', hbegin', -⟩ := Job.inputSite?_spec hinput
    have hsame : s.within = t.within := (hwithin'.trans hwithin).symm
    refine ⟨hsame ▸ List.suffix_rfl, fun _ => hbegin.symm.trans hbegin'.symm, fun hlt => ?_⟩
    rw [hsame] at hlt
    omega
  · obtain ⟨-, hwithin', hbegin'⟩ := Job.innerSite?_spec hinner
    obtain ⟨rest, hkey⟩ := hjob.exists_key_eq
    have hlength : t.within.length = s.within.length + 1 := by
      rw [hwithin', hwithin, List.length_cons]
    refine ⟨?_, fun heq => by omega, fun _ => ⟨rest, ?_⟩⟩
    · rw [hwithin', hwithin]
      exact List.suffix_cons _ _
    · rw [hbegin', hkey, String.append_assoc]

theorem around_of_transGen (h : TransGen (Next r path) s t) : s.Around t := by
  induction h with
  | single hnext => exact hnext.around
  | tail _ hnext ih => exact ih.trans hnext.around

/-- The sites on a way through the document, the last one first. -/
structure Trail (r : Request) (path : String) (ss : List Site) : Prop where
  reached : ∀ s ∈ ss, Reached r path s
  ways : ss.Pairwise fun s t => TransGen (Next r path) t s

theorem Trail.nil (r : Request) (path : String) : Trail r path [] := ⟨nofun, .nil⟩

theorem Trail.tail {ss : List Site} (h : Trail r path (s :: ss)) : Trail r path ss :=
  ⟨fun t ht => h.reached t (List.mem_cons_of_mem s ht), (List.pairwise_cons.mp h.ways).2⟩

/-- A way goes on with every site to which a job for its last one leads. -/
theorem Trail.cons {ss : List Site} {j : Job} (h : Trail r path ss)
    (hjob : Assigned r path ss.head? j) (htarget : s ∈ j.targets r) : Trail r path (s :: ss) := by
  refine ⟨?_, List.pairwise_cons.mpr ⟨?_, h.ways⟩⟩
  · intro t ht
    rcases List.mem_cons.mp ht with rfl | ht
    · exact .target hjob htarget
    · exact h.reached t ht
  · intro t ht
    cases ss with
    | nil => cases ht
    | cons last rest =>
      have hnext : Next r path last s := ⟨j, hjob, htarget⟩
      rcases List.mem_cons.mp ht with rfl | ht
      · exact .single hnext
      · exact .tail (List.rel_of_pairwise_cons h.ways ht) hnext

/-! ## Counting -/

/-- What sites on a way differ in: how many node graphs are around, the graph if it is not the
innermost of them, and the name. -/
def Site.coordinates (outermost : String) (s : Site) : Nat × Option String × String :=
  (s.within.length, if s.graph = s.home outermost then none else some s.graph, s.name)

theorem Site.Around.eq_of_coordinates {outermost : String} (h : s.Around t)
    (heq : s.coordinates outermost = t.coordinates outermost) : s = t := by
  simp only [Site.coordinates, Prod.mk.injEq] at heq
  obtain ⟨hlength, hgraph, hname⟩ := heq
  have hwithin := h.within.eq_of_length hlength
  have hbegin := h.keyPrefix hlength
  have hhome : s.home outermost = t.home outermost := by rw [Site.home, Site.home, hwithin]
  have hgraph' : s.graph = t.graph := by
    rw [hhome] at hgraph
    split at hgraph
    · split at hgraph
      · rename_i hs ht
        rw [hs, ht]
      · cases hgraph
    · split at hgraph
      · cases hgraph
      · exact Option.some.inj hgraph
  cases s
  cases t
  exact Site.mk.injEq .. ▸ ⟨hwithin, hbegin, hgraph', hname⟩

/-- The values of an attribute in a document. -/
def attributeValues (d : Document) (key : String) : List String :=
  d.root.preorder.filterMap (·.filled? key)

theorem length_attributeValues (d : Document) (key : String) :
    (attributeValues d key).length ≤ d.root.size := by
  rw [← Element.length_preorder]
  exact List.length_filterMap_le _ _

theorem mem_attributeValues {d : Document} {key value : String} :
    value ∈ attributeValues d key ↔ ∃ e ∈ d.root.preorder, e.filled? key = some value := by
  rw [attributeValues, List.mem_filterMap]

/-- All coordinates that a site can have. -/
def coordinatesIn (d : Document) (first : String) : List (Nat × Option String × String) :=
  List.range (d.nodeGraphs.length + 1) ×ˢ
    (none :: (attributeValues d "nodegraph").map some) ×ˢ
      (first :: attributeValues d "nodename")

theorem length_coordinatesIn_lt (d : Document) (first : String) :
    (coordinatesIn d first).length < depthBound d := by
  have hgraphs := length_attributeValues d "nodegraph"
  have hnames := length_attributeValues d "nodename"
  simp only [coordinatesIn, List.length_product, List.length_range, List.length_cons,
    List.length_map]
  rw [depthBound, Nat.mul_comm]
  refine Nat.mul_lt_mul_of_le_of_lt (Nat.mul_le_mul (by omega) (by omega)) (by omega) ?_
  exact Nat.mul_pos (by omega) (by omega)

theorem Site.Located.coordinates_mem {d : Document} {outermost first : String}
    (h : s.Located d outermost first) (hnested : s.within.Nodup) :
    s.coordinates outermost ∈ coordinatesIn d first := by
  have hlength : s.within.length ≤ d.nodeGraphs.length := by
    have hle := hnested.length_le_of_subset h.within
    rwa [List.length_map] at hle
  have hcount : s.within.length ∈ List.range (d.nodeGraphs.length + 1) :=
    List.mem_range.mpr (by omega)
  refine List.pair_mem_product.mpr ⟨hcount, List.pair_mem_product.mpr ⟨?_, ?_⟩⟩
  · split
    · exact List.mem_cons_self
    · rename_i hgraph
      have hreferenced := h.graph.resolve_left hgraph
      exact List.mem_cons_of_mem _ (List.mem_map.mpr ⟨_, mem_attributeValues.mpr hreferenced, rfl⟩)
  · rcases h.name with hname | hname
    · exact hname ▸ List.mem_cons_self
    · exact List.mem_cons_of_mem _ (mem_attributeValues.mpr hname)

/-- A way on which keys differ, through a document in which no node graph stands within itself, is
shorter than the depth that the builder allows. -/
theorem Trail.length_lt {ss : List Site} (hnested : ∀ s, Reached r path s → s.within.Nodup)
    (h : Trail r path ss) (hkeys : (ss.map (·.key)).Nodup) :
    ss.length < depthBound r.document := by
  obtain ⟨outermost, first, hlocated⟩ := exists_located r path
  have hnodup : (ss.map (Site.coordinates outermost)).Nodup := by
    have hapart := h.ways.and (List.pairwise_map.mp hkeys)
    refine List.pairwise_map.mpr (hapart.imp fun {s t} ⟨hway, hkey⟩ heq => hkey ?_)
    rw [(around_of_transGen hway).eq_of_coordinates heq.symm]
  have hsubset : ss.map (Site.coordinates outermost) ⊆ coordinatesIn r.document first := by
    intro c hc
    obtain ⟨s, hs, rfl⟩ := List.mem_map.mp hc
    have hreached := h.reached s hs
    exact (hlocated s hreached).coordinates_mem (hnested s hreached)
  calc ss.length
    _ = (ss.map (Site.coordinates outermost)).length := (List.length_map _).symm
    _ ≤ (coordinatesIn r.document first).length := hnodup.length_le_of_subset hsubset
    _ < depthBound r.document := length_coordinatesIn_lt r.document first

/-! ## Plain names -/

section PlainNames

variable (hnames : PlainNames r.document path)

include hnames

/-- The parts of the key of a site can be told apart. -/
theorem Reached.keyParts (h : Reached r path s) : KeyParts s.keyPrefix s.graph s.name := by
  refine h.induction (P := fun s => KeyParts s.keyPrefix s.graph s.name) (fun p hstart => ?_) ?_
  · exact (start_place_origin hnames hstart).keyParts hnames
  intro owner j t hjob howner htarget
  have hj : (j.keyPrefix = "" ∨ ∃ key, j.keyPrefix = key ++ ">") ∧ '>' ∉ j.graph.toList := by
    cases owner with
    | none =>
      cases hjob with
      | start hstart =>
        obtain ⟨e, -, -, nodeDef, rfl⟩ := start_plan_spec hstart
        exact ⟨.inl rfl, show '>' ∉ "".toList by decide⟩
    | some u =>
      obtain ⟨-, hbegin, hgraph⟩ := hjob.owner_eq
      exact ⟨hbegin ▸ (howner u rfl).outer, hgraph ▸ (howner u rfl).graph⟩
  rcases Job.mem_targets.mp htarget with ⟨defInput, -, hinput⟩ | hinner
  · obtain ⟨-, hbegin, -⟩ := Job.inputSite?_spec hinput
    obtain ⟨hname, hgraph⟩ := hjob.input_named hinput
    have hplain := hnames.plain hname
    refine ⟨hbegin ▸ hj.1, ?_, hplain.angle, hplain.slash⟩
    rcases hgraph with hgraph | ⟨e, he, hfilled⟩
    · exact hgraph ▸ hj.2
    · exact (hnames.reference e he _ hfilled).1
  · obtain ⟨hexpansion, -, hbegin⟩ := Job.innerSite?_spec hinner
    obtain ⟨hgraph, hplain⟩ := hnames.expansion hexpansion
    exact ⟨.inr ⟨j.key, hbegin⟩, hgraph, hplain.angle, hplain.slash⟩

/-- With plain names only a missing node behind an output is in the way. -/
theorem Unobstructed.of_plainNames
    (hbehind : ∀ s output, Reached r path s →
      outputNode? r.document s.graph output = some s.name →
        (r.document.element? s.path).isSome) : Unobstructed r path := by
  refine ⟨hbehind, fun s t hs hway hkey => ?_⟩
  have ht : Reached r path t := by
    cases hway with
    | single hnext => exact .target hnext.choose_spec.1 hnext.choose_spec.2
    | tail _ hnext => exact .target hnext.choose_spec.1 hnext.choose_spec.2
  obtain ⟨hbegin, hgraph, hname⟩ := (hs.keyParts hnames).inj (ht.keyParts hnames) hkey
  have haround := around_of_transGen hway
  have hwithin : s.within = t.within := by
    refine haround.within.eq_of_length ?_
    rcases Nat.lt_or_eq_of_le haround.within.length_le with hlt | heq
    · obtain ⟨rest, hlonger⟩ := haround.longer hlt
      have hlength := congrArg String.length (hbegin.trans hlonger)
      simp only [String.length_append] at hlength
      have hone : ">".length = 1 := rfl
      omega
    · exact heq
  cases s
  cases t
  exact Site.mk.injEq .. ▸ ⟨hwithin, hbegin, hgraph, hname⟩

end PlainNames

end Graph

end MaterialViewer
