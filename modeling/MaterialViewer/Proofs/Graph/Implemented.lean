import MaterialViewer.Proofs.Graph.Frames
import MaterialViewer.Proofs.Graph.MissingNodes

/-!
# Proofs: the implementation of what is drawn

The walk for what is drawn carries a flag, and keeps it on the way through the node graphs that
stand in the place of nodes. A node that it comes to with the flag has to have a definition and an
implementation. If names are plain, nothing of such a node is built before, so the flag is asked for
at each of them, and a graph that is built has them all.

Still the node at the root may have no code. The flag is not asked for where a node graph has no
output that could be followed, and it is not passed on to the conversion between color spaces that
comes after a node. These are the only gaps: otherwise the root is computed by code of the document
or of the registry.
-/

namespace MaterialViewer.Graph

variable {r : Request} {path key : String} {b b' : Build} {walk : Walk} {index : Nat}

/-! ## The walk with the flag -/

/-- Nothing is recorded for the keys that begin with a key. -/
def Untouched (key : String) (b : Build) : Prop :=
  ∀ k, key.toList <+: k.toList → Ordered.get? k b.built = none

/-- The site of a name in a scope. -/
def Scope.site (s : Scope) (within : List String) (name : String) : Site :=
  { within, keyPrefix := s.keyPrefix, graph := s.graph, name }

/-- What the walk finds with the flag can be used, if nothing of it was there before. -/
def WalkResolves (r : Request) (walk : Walk) : Prop :=
  ∀ ⦃scope name b index b'⦄, walk scope name true b = .ok (index, b') →
    KeyParts scope.keyPrefix scope.graph name → Plain name → Untouched (scope.keyOf name) b →
      ∀ within, (scope.site within name).Resolves r

theorem plan_resolves (hnames : PlainNames r.document path) {p : Plan}
    (hframes : WalkFrames r p.key walk) (hresolves : WalkResolves r walk)
    (h : PlanStep r walk p b index b') (hroot : p.isRoot) (hscope : p.scope.Outside p.key)
    (hinst : Authored r.document p.inst) (ht : Taken r p.key b) (hnew : Untouched p.key b)
    (within : List String) : (p.job within).Resolves r := by
  obtain ⟨hname, hinputs, hadd⟩ := h
  have hnamed : Frame p.key b _ := freshName_frame hname
  have hframe := hnamed.trans (inputs_frame hnames hframes hscope hinst hinputs (ht.frame hnamed))
  cases hadd with
  | @inner graph name _ _ hexpansion hrun =>
    obtain ⟨hgraph, hplain⟩ := hnames.expansion hexpansion
    have hinner : (p.job within).innerSite? r =
        some ⟨graph :: within, p.key ++ ">", graph, name⟩ :=
      Option.map_eq_some_iff.mpr ⟨(graph, name), hexpansion, rfl⟩
    have hparts : KeyParts (p.key ++ ">") graph name :=
      ⟨.inr ⟨p.key, rfl⟩, hgraph, hplain.angle, hplain.slash⟩
    obtain ⟨e, nodeDef, helement, hdef, hnode⟩ := by
      refine hresolves (hroot ▸ hrun) hparts hplain (fun k hk => ?_) (graph :: within)
      -- the inputs are outside, so what is inside is as it was before
      have hinside : Inside p.key k := by
        refine List.IsPrefix.trans ?_ hk
        show _ <+: (p.key ++ ">" ++ Element.joinPath graph name).toList
        rw [String.toList_append, String.toList_append]
        exact List.prefix_append _ _
      rw [hframe.built k hinside]
      exact hnew k ((List.prefix_append _ _).trans hinside)
    exact .inner hinner helement hdef hnode
  | single hexpansion himpl _ =>
    exact .single (himpl hroot) (Option.map_eq_none_iff.mpr hexpansion)

theorem buildNode_resolves (hnames : PlainNames r.document path) (depth : Nat) :
    WalkResolves r (buildNode r depth) := by
  induction depth with
  | zero => exact fun _ _ _ _ _ hrun => absurd hrun throw_ok
  | succ depth ih =>
    intro scope name b index b' hrun hparts hplain hnew within
    cases buildNodeWith_ok hrun with
    | known hbuilt => cases hbuilt.symm.trans (hnew _ List.prefix_rfl)
    | @new e _ _ _ _ _ _ _ hbegin helement hstep _ _ =>
      obtain rfl := beginNode_ok.mp hbegin
      cases hstep with
      | undefined _ hroot _ _ => exact absurd rfl hroot
      | @defined nodeDef _ _ _ _ hdef hplan _ =>
        refine ⟨e, nodeDef, helement, hdef, ?_⟩
        refine plan_resolves hnames (buildNode_frames hnames _ depth) ih hplan rfl
          ⟨hparts.outer, hparts.graph, not_inside_front _ _⟩
          (authored_node (Document.mem_of_element? helement)) ?_ hnew within
        -- the node is in progress, and a plain name does not end like that of a conversion
        refine ⟨fun _ _ _ _ _ _ => List.mem_cons_self, fun p g n hparts' hkey => ?_⟩
        obtain ⟨-, -, hname⟩ := hparts'.conversion.inj hparts hkey
        refine hplain.ending ?_
        rw [← hname, String.toList_append]
        exact List.suffix_append _ _

/-- A shader reference that is drawn is not met again on the way. -/
theorem taken_start (hnames : PlainNames r.document path) {e : Element}
    (helement : r.document.element? path = some e) (hcategory : e.category = "shaderref") :
    Taken r path {} := by
  refine ⟨fun p g n hparts ⟨e', he', hname⟩ hkey => ?_, fun p g n hparts hkey => ?_⟩
  · obtain ⟨-, hsplit⟩ := hparts.splitPath_eq hnames.angle hkey
    refine absurd hname ?_
    have hother := hnames.shaderRef e helement hcategory e' he'
    rwa [hsplit] at hother
  · obtain ⟨-, hsplit⟩ := hparts.conversion.splitPath_eq hnames.angle hkey
    refine hnames.last.ending ?_
    rw [hsplit, String.toList_append]
    exact List.suffix_append _ _

theorem root_resolves {depth root : Nat} (hnames : PlainNames r.document path)
    (h : buildWithin r depth path = .ok (root, b)) : RootResolves r path := by
  have hresolves := buildNode_resolves (r := r) hnames depth
  have hplace {graph name : String} {index : Nat} {b' : Build}
      (hstart : start? r.document path = some (.place ⟨{ graph }, name⟩))
      (hrun : buildNode r depth { graph } name true {} = .ok (index, b')) :
      RootResolves r path := by
    have horigin := start_place_origin hnames hstart
    exact .place hstart (hresolves hrun (horigin.keyParts hnames) horigin.plain (fun _ _ => rfl) [])
  cases buildRoot_ok h with
  | shaderRef helement hcategory hdef hplan =>
    refine .plan (start?_shaderRef helement hcategory hdef) ?_
    have hscope : Scope.Outside path {} :=
      ⟨.inl rfl, show '>' ∉ "".toList by decide, fun hinside => nomatch hinside.mem⟩
    exact plan_resolves hnames (buildNode_frames hnames path depth) hresolves hplan rfl hscope
      (authored_shaderRef (Document.mem_of_element? helement))
      (taken_start hnames helement hcategory) (fun _ _ => rfl) []
  | output helement hcategory hgraph hname hrun =>
    exact hplace (start?_output helement hcategory hgraph hname) hrun
  | node helement href houtput hrun => exact hplace (start?_node helement href houtput) hrun

/-! ## The node that a site ends at -/

/-- What consumers see of a node: its types and its code. -/
structure Ending where
  signature : Signature
  code? : Option NodeCode

section Ending

variable (r : Request)

mutual

/-- A job ends at a node: its own one, or the one behind the output of the node graph that stands in
its place. -/
inductive Job.EndsAt : Job → Ending → Prop
  | single {j : Job} (hinner : j.innerSite? r = none) :
      Job.EndsAt j ⟨j.signature, code? r j.nodeDef.name⟩
  | inner {j : Job} {s : Site} {ending : Ending} (hinner : j.innerSite? r = some s)
      (hsite : Site.EndsAt s ending) : Job.EndsAt j ending

/-- A site ends at a node: the one for the element there, or the conversion after it. -/
inductive Site.EndsAt : Site → Ending → Prop
  | undefined {s : Site} {e : Element} (helement : r.document.element? s.path = some e)
      (hdef : r.document.nodeDefOfNode? e = none) :
      Site.EndsAt s ⟨⟨[], .ofName e.typeName⟩, none⟩
  | defined {s : Site} {e nodeDef : Element} {own ending : Ending}
      (helement : r.document.element? s.path = some e)
      (hdef : r.document.nodeDefOfNode? e = some nodeDef)
      (hown : Job.EndsAt (.ofNode s e nodeDef) own) (hconverts : Site.Converts s e own ending) :
      Site.EndsAt s ending

/-- A conversion follows the node for the element at a site, or none does. -/
inductive Site.Converts : Site → Element → Ending → Ending → Prop
  | unneeded {s : Site} {e : Element} {own : Ending}
      (hconversion : conversionOf? r e own.signature.inputs own.signature.type = none) :
      Site.Converts s e own own
  | needed {s : Site} {e conversion : Element} {own ending : Ending}
      (hconversion : conversionOf? r e own.signature.inputs own.signature.type = some conversion)
      (hending : Job.EndsAt (.ofConversion s conversion own.signature.type) ending) :
      Site.Converts s e own ending

end

mutual

/-- The code of a job is not asked for: its definition is implemented by a node graph without an
output that could be followed, or by one that ends at a site whose code is not asked for. -/
inductive Job.Uncovered : Job → Prop
  | outputless {j : Job} {graph : String}
      (himpl : implementationOf r j.nodeDef.name = .ok (.inr graph))
      (houtput : outputNode? r.document graph "" = none) : Job.Uncovered j
  | inner {j : Job} {s : Site} (hinner : j.innerSite? r = some s) (hsite : Site.Uncovered s) :
      Job.Uncovered j

/-- The code of a site is not asked for: that of its node is not, or the conversion after it ends
without code. -/
inductive Site.Uncovered : Site → Prop
  | node {s : Site} {e nodeDef : Element} {own : Ending}
      (helement : r.document.element? s.path = some e)
      (hdef : r.document.nodeDefOfNode? e = some nodeDef)
      (hown : (Job.ofNode s e nodeDef).EndsAt r own)
      (hconversion : conversionOf? r e own.signature.inputs own.signature.type = none)
      (hnode : Job.Uncovered (.ofNode s e nodeDef)) : Site.Uncovered s
  | conversion {s : Site} {e nodeDef conversion : Element} {own ending : Ending}
      (helement : r.document.element? s.path = some e)
      (hdef : r.document.nodeDefOfNode? e = some nodeDef)
      (hown : (Job.ofNode s e nodeDef).EndsAt r own)
      (hconversion : conversionOf? r e own.signature.inputs own.signature.type = some conversion)
      (hending : (Job.ofConversion s conversion own.signature.type).EndsAt r ending)
      (hcode : ending.code? = none) : Site.Uncovered s

end

/-- The code of what is drawn for the element with a path is not asked for. -/
inductive RootUncovered (path : String) : Prop
  | plan {p : TreePlan} (hstart : start? r.document path = some (.plan p))
      (hjob : (Job.ofTreePlan p).Uncovered r)
  | place {p : Place} (hstart : start? r.document path = some (.place p))
      (hsite : (Site.ofPlace p).Uncovered r)

end Ending

/-! ### A site ends at one node -/

mutual

theorem Job.EndsAt.unique : ∀ {j : Job} {ending ending' : Ending}, j.EndsAt r ending →
    j.EndsAt r ending' → ending = ending'
  | _, _, _, .single _, .single _ => rfl
  | _, _, _, .single hnone, .inner hinner _ => nomatch hnone.symm.trans hinner
  | _, _, _, .inner hinner _, .single hnone => nomatch hnone.symm.trans hinner
  | _, _, _, .inner hinner hsite, .inner hinner' hsite' => by
    obtain rfl := Option.some.inj (hinner.symm.trans hinner')
    exact hsite.unique hsite'

theorem Site.EndsAt.unique : ∀ {s : Site} {ending ending' : Ending}, s.EndsAt r ending →
    s.EndsAt r ending' → ending = ending'
  | _, _, _, .undefined helement _, .undefined helement' _ => by
    rw [Option.some.inj (helement.symm.trans helement')]
  | _, _, _, .undefined helement hdef, .defined helement' hdef' _ _ => by
    obtain rfl := Option.some.inj (helement.symm.trans helement')
    cases hdef.symm.trans hdef'
  | _, _, _, .defined helement hdef _ _, .undefined helement' hdef' => by
    obtain rfl := Option.some.inj (helement.symm.trans helement')
    cases hdef.symm.trans hdef'
  | _, _, _, .defined helement hdef hown hconverts, .defined helement' hdef' hown' hconverts' => by
    obtain rfl := Option.some.inj (helement.symm.trans helement')
    obtain rfl := Option.some.inj (hdef.symm.trans hdef')
    obtain rfl := hown.unique hown'
    exact hconverts.unique hconverts'

theorem Site.Converts.unique : ∀ {s : Site} {e : Element} {own ending ending' : Ending},
    s.Converts r e own ending → s.Converts r e own ending' → ending = ending'
  | _, _, _, _, _, .unneeded _, .unneeded _ => rfl
  | _, _, _, _, _, .unneeded hnone, .needed hsome _ => nomatch hnone.symm.trans hsome
  | _, _, _, _, _, .needed hsome _, .unneeded hnone => nomatch hnone.symm.trans hsome
  | _, _, _, _, _, .needed hconversion hending, .needed hconversion' hending' => by
    obtain rfl := Option.some.inj (hconversion.symm.trans hconversion')
    exact hending.unique hending'

end

/-! ### The trees of places end there -/

/-- The types and the code of a tree. -/
def treeEnding (t : NodeTree) : Ending := ⟨treeSignature t, t.code?⟩

section Tree

variable {tree : NodeTree} {n : Nat}

theorem Job.IsPlan.endsAt {j : Job} {p : TreePlan} (h : j.IsPlan p)
    (hplaces : ∀ {s : Site} {place : Place} {t : NodeTree}, s.IsPlace place →
      placeTree? r n place = some t → s.EndsAt r (treeEnding t))
    (htree : p.tree? r (placeTree? r n) = some tree) : j.EndsAt r (treeEnding tree) := by
  cases hinner : j.innerSite? r with
  | none =>
    have hsig := h.signature_eq ⟨n, htree⟩ hinner
    obtain ⟨inputs, -, htree⟩ := Option.bind_eq_some_iff.mp htree
    rw [h.innerSite?_eq_none hinner] at htree
    obtain rfl := Option.some.inj htree
    have hending : treeEnding (p.node r inputs) = ⟨j.signature, code? r j.nodeDef.name⟩ := by
      rw [treeEnding, hsig, h.nodeDef, TreePlan.node]
    exact hending ▸ .single hinner
  | some s =>
    obtain ⟨inputs, -, htree⟩ := Option.bind_eq_some_iff.mp htree
    obtain ⟨hexpansion, hplace⟩ := h.inner hinner inputs
    rw [hexpansion] at htree
    exact .inner hinner (hplaces hplace htree)

/-- A site ends at the root of the tree of its place. -/
theorem Site.IsPlace.endsAt {s : Site} {place : Place} (h : s.IsPlace place)
    (htree : placeTree? r n place = some tree) : s.EndsAt r (treeEnding tree) := by
  induction n generalizing s place tree with
  | zero => cases htree
  | succ n ih =>
    obtain ⟨e, helement, htree⟩ := Option.bind_eq_some_iff.mp htree
    rw [← h.path_eq] at helement
    cases hdef : r.document.nodeDefOfNode? e with
    | none =>
      rw [hdef] at htree
      obtain rfl := Option.some.inj htree
      exact .undefined helement hdef
    | some nodeDef =>
      rw [hdef] at htree
      obtain ⟨own, hown, hconverted⟩ := Option.bind_eq_some_iff.mp htree
      refine .defined helement hdef (h.node.endsAt ih hown) ?_
      rcases convertedTree?_eq_some_iff.mp hconverted with ⟨hplan, rfl⟩ | ⟨plan, hplan, htree⟩
      · exact .unneeded (Option.map_eq_none_iff.mp hplan)
      · obtain ⟨conversion, hconversion, rfl⟩ := Option.map_eq_some_iff.mp hplan
        exact .needed hconversion ((h.conversion own).endsAt ih htree)

end Tree

/-! ## Code at the root -/

section Uncovered

variable {s : Site} {j : Job} {e nodeDef : Element} {ending : Ending}

/-- A site that ends without code is not asked for it, if that is so for its node. -/
theorem Site.EndsAt.uncovered (h : s.EndsAt r ending)
    (helement : r.document.element? s.path = some e)
    (hdef : r.document.nodeDefOfNode? e = some nodeDef)
    (hnode : ∀ own, (Job.ofNode s e nodeDef).EndsAt r own → own.code? = none →
      (Job.ofNode s e nodeDef).Uncovered r)
    (hcode : ending.code? = none) : s.Uncovered r := by
  cases h with
  | undefined helement' hdef' =>
    obtain rfl := Option.some.inj (helement.symm.trans helement')
    cases hdef.symm.trans hdef'
  | defined helement' hdef' hown hconverts =>
    obtain rfl := Option.some.inj (helement.symm.trans helement')
    obtain rfl := Option.some.inj (hdef.symm.trans hdef')
    cases hconverts with
    | unneeded hconversion =>
      exact .node helement hdef hown hconversion (hnode ending hown hcode)
    | needed hconversion hending =>
      exact .conversion helement hdef hown hconversion hending hcode

theorem Job.Resolves.uncovered (h : j.Resolves r) (hends : j.EndsAt r ending)
    (hcode : ending.code? = none) : j.Uncovered r := by
  induction h generalizing ending with
  | single himpl hnone =>
    obtain ⟨impl, himpl⟩ := himpl
    cases hends with
    | inner hinner _ => cases hnone.symm.trans hinner
    | single _ =>
      cases impl with
      | inl code => simp [code?, himpl] at hcode
      | inr graph =>
        have hexpansion := Option.map_eq_none_iff.mp hnone
        simp only [expansion?, himpl, Option.map_eq_none_iff] at hexpansion
        exact .outputless himpl hexpansion
  | inner hinner helement hdef _ ih =>
    cases hends with
    | single hnone => cases hnone.symm.trans hinner
    | inner hinner' hsite =>
      obtain rfl := Option.some.inj (hinner.symm.trans hinner')
      exact .inner hinner (hsite.uncovered helement hdef (fun _ => ih) hcode)

mutual

theorem Job.Uncovered.endsAt : ∀ {j : Job}, j.Uncovered r →
    ∃ ending, j.EndsAt r ending ∧ ending.code? = none
  | j, .outputless himpl houtput => by
    have hinner : j.innerSite? r = none := by simp [Job.innerSite?, expansion?, himpl, houtput]
    exact ⟨_, .single hinner, by simp [code?, himpl]⟩
  | _, .inner hinner hsite => by
    obtain ⟨ending, hends, hcode⟩ := hsite.endsAt
    exact ⟨ending, .inner hinner hends, hcode⟩

theorem Site.Uncovered.endsAt : ∀ {s : Site}, s.Uncovered r →
    ∃ ending, s.EndsAt r ending ∧ ending.code? = none
  | _, .node helement hdef hown hconversion hnode => by
    obtain ⟨ending, hends, hcode⟩ := hnode.endsAt
    obtain rfl := hown.unique hends
    exact ⟨_, .defined helement hdef hown (.unneeded hconversion), hcode⟩
  | _, .conversion helement hdef hown hconversion hending hcode =>
    ⟨_, .defined helement hdef hown (.needed hconversion hending), hcode⟩

end

theorem Job.Resolves.uncovered_iff (h : j.Resolves r) (hends : j.EndsAt r ending) :
    ending.code? = none ↔ j.Uncovered r := by
  refine ⟨h.uncovered hends, fun huncovered => ?_⟩
  obtain ⟨ending', hends', hcode⟩ := huncovered.endsAt
  exact hends.unique hends' ▸ hcode

theorem Site.Resolves.uncovered_iff (h : s.Resolves r) (hends : s.EndsAt r ending) :
    ending.code? = none ↔ s.Uncovered r := by
  constructor
  · obtain ⟨e, nodeDef, helement, hdef, hnode⟩ := h
    exact hends.uncovered helement hdef fun _ => hnode.uncovered
  · intro huncovered
    obtain ⟨ending', hends', hcode⟩ := huncovered.endsAt
    exact hends.unique hends' ▸ hcode

end Uncovered

/-- The tree of what is drawn has no code at its root exactly if the code is not asked for. -/
theorem RootResolves.uncovered_iff {n : Nat} {tree : NodeTree} (h : RootResolves r path)
    (htree : elementTree? r n path = some tree) : tree.code? = none ↔ RootUncovered r path := by
  obtain ⟨start, hstart, htree⟩ := Option.bind_eq_some_iff.mp htree
  cases h with
  | @plan p hstart' hjob =>
    obtain rfl := Option.some.inj (hstart.symm.trans hstart')
    have hplan : (Job.ofTreePlan p).IsPlan p := ⟨rfl, rfl, rfl, rfl, rfl, rfl⟩
    have hends := hplan.endsAt (fun hplace => hplace.endsAt) htree
    refine (hjob.uncovered_iff hends).trans ⟨.plan hstart, fun hroot => ?_⟩
    cases hroot with
    | plan hstart' huncovered =>
      obtain rfl := Start.plan.inj (Option.some.inj (hstart.symm.trans hstart'))
      exact huncovered
    | place hstart' _ => cases hstart.symm.trans hstart'
  | @place p hstart' hsite =>
    obtain rfl := Option.some.inj (hstart.symm.trans hstart')
    have hplace : (Site.ofPlace p).IsPlace p := ⟨rfl, rfl, rfl⟩
    refine (hsite.uncovered_iff (hplace.endsAt htree)).trans ⟨.place hstart, fun hroot => ?_⟩
    cases hroot with
    | plan hstart' _ => cases hstart.symm.trans hstart'
    | place hstart' huncovered =>
      obtain rfl := Start.place.inj (Option.some.inj (hstart.symm.trans hstart'))
      exact huncovered

/-- With plain names, a graph that is built has a root whose definition and implementation are
found, in every node graph down to the last one. The root has code, unless a node graph on the way
has no output that could be followed, or a conversion after a node on the way ends without code. -/
theorem graphWithin_root {depth : Nat} {g : ShaderGraph} (hnames : PlainNames r.document path)
    (h : graphWithin r depth path = .ok g) :
    RootResolves r path ∧
      ∃ node, g.nodes[g.root]? = some node ∧ (node.code? = none ↔ RootUncovered r path) := by
  obtain ⟨tree, n, htree⟩ := unfolds_of_plainNames hnames h
  obtain ⟨⟨root, b⟩, hbuild, rfl⟩ := map_ok.mp h
  have hresolves := root_resolves hnames hbuild
  refine ⟨hresolves, ?_⟩
  obtain ⟨hroot, hat⟩ := htree (n + 1) (Nat.le_succ n)
  obtain ⟨node, hnode, hat⟩ := Option.bind_eq_some_iff.mp hat
  obtain ⟨inputs, -, rfl⟩ := Option.map_eq_some_iff.mp hat
  exact ⟨node, hnode, hresolves.uncovered_iff hroot⟩

/-- A node whose definition is implemented by a node graph with the given elements. -/
def Sample.inlined (children : List Element) : Request := request [
  definition "mix" "float" [input "a" "float"],
  implementation "mix" "\x7b\x7ba\x7d\x7d",
  definition "tone" "float" [],
  { category := "nodegraph", name := "NG", attributes := [("nodedef", "ND_tone")], children },
  node "tone" "top" "float" []]

/-- A node and an output that is connected to it. -/
def Sample.mixed : List Element := [
  node "mix" "n" "float" [],
  { category := "output", name := "out", attributes := [("type", "float"), ("nodename", "n")] }]

theorem graphWithin_root_inlined : ∃ g, build (Sample.inlined Sample.mixed) "top" = .ok g ∧
    RootResolves (Sample.inlined Sample.mixed) "top" ∧
    ∃ node, g.nodes[g.root]? = some node ∧
      (node.code? = none ↔ RootUncovered (Sample.inlined Sample.mixed) "top") := by
  have hnames : PlainNames (Sample.inlined Sample.mixed).document "top" := by
    refine ⟨?_, ?_, ?_, ?_, ?_, ?_, ?_⟩ <;> decide +kernel
  have heval : (build (Sample.inlined Sample.mixed) "top").toOption.map (·.root) = some 0 := by
    decide +kernel
  obtain ⟨g, hbuild, -⟩ := Sample.exists_ok_of_map heval
  exact ⟨g, hbuild, graphWithin_root hnames hbuild⟩

/-- A node graph without an output leaves the root without code. -/
theorem build_root_uncovered : ∃ g node, build (Sample.inlined []) "top" = .ok g ∧
    g.nodes[g.root]? = some node ∧ node.code? = none := by
  have heval : (build (Sample.inlined []) "top").toOption.map (fun g =>
      (g.nodes[g.root]?).map (·.code?.isNone)) = some (some true) := by decide +kernel
  obtain ⟨g, hbuild, hroot⟩ := Sample.exists_ok_of_map heval
  obtain ⟨node, hnode, hcode⟩ := Option.map_eq_some_iff.mp hroot
  exact ⟨g, node, hbuild, hnode, Option.isNone_iff_eq_none.mp hcode⟩

end MaterialViewer.Graph
