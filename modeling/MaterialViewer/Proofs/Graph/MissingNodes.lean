import MaterialViewer.Proofs.Graph.SoftFailures

/-!
# Proofs: no graph without the nodes it needs

With plain names, the sites that are reached are the places that the plain unfolding of what is
drawn asks for, and a graph that is built is that unfolding. An unfolding has a node for each place,
so all sites exist: a missing node behind an output does not only fail some graphs, it fails all in
which it is reached.
-/

namespace MaterialViewer.Graph

variable {r : Request} {path : String} {tree tree' : NodeTree}

/-! ## Unfolding a plan and a place -/

/-- How the tree of a planned node is made. -/
inductive PlanUnfolding (r : Request) (p : TreePlan) : NodeTree → Prop
  | single {depth : Nat} {inputs : List (TreeInput NodeTree)}
      (hinputs : p.inputTrees? r (placeTree? r depth) = some inputs)
      (hnone : expansion? r p.nodeDef.name = none) : PlanUnfolding r p (p.node r inputs)
  | inner {depth : Nat} {inputs : List (TreeInput NodeTree)} {graph name : String}
      {tree : NodeTree} (hinputs : p.inputTrees? r (placeTree? r depth) = some inputs)
      (hexpansion : expansion? r p.nodeDef.name = some (graph, name))
      (htree : Task.Unfolds r (.place (p.inner inputs graph name)) tree) : PlanUnfolding r p tree

theorem TreePlan.Unfolds.cases {p : TreePlan} (h : p.Unfolds r tree) : PlanUnfolding r p tree := by
  obtain ⟨depth, h⟩ := h
  obtain ⟨inputs, hinputs, h⟩ := Option.bind_eq_some_iff.mp h
  cases hexpansion : expansion? r p.nodeDef.name with
  | none =>
    rw [hexpansion] at h
    exact Option.some.inj h ▸ .single hinputs hexpansion
  | some inner =>
    obtain ⟨graph, name⟩ := inner
    rw [hexpansion] at h
    exact .inner hinputs hexpansion ⟨depth, h⟩

section Place

variable {p : Place} {e nodeDef : Element} (h : Task.Unfolds r (.place p) tree)

include h

/-- A place that is unfolded exists. -/
theorem unfolds_element : ∃ e, r.document.element? p.path = some e := by
  obtain ⟨depth, h⟩ := h
  cases depth with
  | zero => cases h
  | succ depth =>
    obtain ⟨e, helement, -⟩ := Option.bind_eq_some_iff.mp h
    exact ⟨e, helement⟩

theorem unfolds_undefined (helement : r.document.element? p.path = some e)
    (hdef : r.document.nodeDefOfNode? e = none) : tree = undefinedTree e p.path := by
  obtain ⟨depth, h⟩ := h
  cases depth with
  | zero => cases h
  | succ depth =>
    rw [placeTree?, placeTreeWith?, helement, Option.bind_some, hdef] at h
    exact (Option.some.inj h).symm

/-- The tree of a place with a definition is that of its node, or of the conversion after it. -/
theorem unfolds_defined (helement : r.document.element? p.path = some e)
    (hdef : r.document.nodeDefOfNode? e = some nodeDef) :
    ∃ own, (TreePlan.ofNode p e nodeDef).Unfolds r own ∧
      ((conversionPlan? r p e own = none ∧ tree = own) ∨
        ∃ plan, conversionPlan? r p e own = some plan ∧ plan.Unfolds r tree) := by
  obtain ⟨depth, h⟩ := h
  cases depth with
  | zero => cases h
  | succ depth =>
    rw [placeTree?, placeTreeWith?, helement, Option.bind_some, hdef] at h
    obtain ⟨own, hown, h⟩ := Option.bind_eq_some_iff.mp h
    refine ⟨own, ⟨depth, hown⟩, ?_⟩
    rcases convertedTree?_eq_some_iff.mp h with hunneeded | ⟨plan, hplan, htree⟩
    · exact .inl hunneeded
    · exact .inr ⟨plan, hplan, depth, htree⟩

end Place

theorem PlanUnfolding.inputs {p : TreePlan} (h : PlanUnfolding r p tree) :
    ∃ depth inputs, p.inputTrees? r (placeTree? r depth) = some inputs := by
  cases h with
  | single hinputs _ => exact ⟨_, _, hinputs⟩
  | inner hinputs _ _ => exact ⟨_, _, hinputs⟩

/-! ## Whatever an unfolding asks for has a tree -/

section Unfolds

variable {depth : Nat}

mutual

theorem Planned.unfolds (hroot : elementTree? r depth path = some tree) :
    ∀ {p : TreePlan}, Planned r path p → ∃ tree, p.Unfolds r tree
  | _, .start hstart => by
    obtain ⟨start, hstart', h⟩ := Option.bind_eq_some_iff.mp hroot
    obtain rfl := Option.some.inj (hstart.symm.trans hstart')
    exact ⟨tree, depth, h⟩
  | _, .node hplace helement hdef => by
    obtain ⟨t, ht⟩ := hplace.unfolds hroot _ rfl
    obtain ⟨own, hown, -⟩ := unfolds_defined ht helement hdef
    exact ⟨own, hown⟩
  | _, .conversion hplace helement hdef htree hplan => by
    obtain ⟨t, ht⟩ := hplace.unfolds hroot _ rfl
    obtain ⟨own, ⟨n, hown⟩, hconversion⟩ := unfolds_defined ht helement hdef
    obtain rfl := planTree?_unique htree hown
    rcases hconversion with ⟨hnone, -⟩ | ⟨plan, hsome, hunfolds⟩
    · cases hplan.symm.trans hnone
    · obtain rfl := Option.some.inj (hplan.symm.trans hsome)
      exact ⟨t, hunfolds⟩

theorem Asked.unfolds (hroot : elementTree? r depth path = some tree) :
    ∀ {task : Task}, Asked r path task → ∀ p, task = .place p →
      ∃ tree, Task.Unfolds r (.place p) tree
  | _, .start hstart, p, hp => by
    obtain rfl := Task.place.inj hp
    obtain ⟨start, hstart', h⟩ := Option.bind_eq_some_iff.mp hroot
    obtain rfl := Option.some.inj (hstart.symm.trans hstart')
    exact ⟨tree, depth, h⟩
  | _, .input hplan hinput hadded href, p, hp => by
    obtain rfl := Task.place.inj hp
    obtain ⟨t, ht⟩ := hplan.unfolds hroot
    obtain ⟨n, inputs, hinputs⟩ := ht.cases.inputs
    obtain ⟨input, h⟩ := exists_of_mapM hinputs _ hinput
    simp only [TreePlan.inputTree?, hadded, href] at h
    obtain ⟨source, hsource, -⟩ := Option.map_eq_some_iff.mp h
    exact ⟨source, n, hsource⟩
  | _, .property _ _ _ _ _ _, _, hp => nomatch hp
  | _, .inner hplan hinputs hexpansion, p, hp => by
    obtain rfl := Task.place.inj hp
    obtain ⟨t, ht⟩ := hplan.unfolds hroot
    cases ht.cases with
    | single _ hnone => cases hnone.symm.trans hexpansion
    | inner hinputs' hexpansion' htree =>
      obtain ⟨rfl, rfl⟩ := Prod.mk.inj (Option.some.inj (hexpansion.symm.trans hexpansion'))
      obtain rfl := inputTrees?_unique hinputs hinputs'
      exact ⟨_, htree⟩

end

end Unfolds

/-! ## Sites are places -/

def treeSignature (t : NodeTree) : Signature := ⟨t.inputs.map (·.type), t.type⟩

theorem ownTree_declared (inst : Instance NodeTree) (defInput : Element) :
    (inst.ownTree r defInput).name = defInput.name ∧
      (inst.ownTree r defInput).type = .ofName defInput.typeName := by
  unfold Instance.ownTree
  split <;> exact ⟨rfl, rfl⟩

/-- An input has the name and the type that the definition declares. -/
theorem inputTree?_declared {p : TreePlan} {trees : Place → Option NodeTree} {defInput : Element}
    {input : TreeInput NodeTree} (h : p.inputTree? r trees defInput = some input) :
    input.name = defInput.name ∧ input.type = .ofName defInput.typeName := by
  unfold TreePlan.inputTree? at h
  split at h
  · exact Option.some.inj h ▸ ⟨rfl, rfl⟩
  · split at h
    · obtain ⟨source, -, rfl⟩ := Option.map_eq_some_iff.mp h
      exact ⟨rfl, rfl⟩
    · exact Option.some.inj h ▸ ⟨rfl, rfl⟩
    · exact Option.some.inj h ▸ ownTree_declared _ _

theorem inputTrees?_types {p : TreePlan} {trees : Place → Option NodeTree}
    {inputs : List (TreeInput NodeTree)} (h : p.inputTrees? r trees = some inputs) :
    inputs.map (·.type) =
      p.nodeDef.valueElements.map fun defInput => .ofName defInput.typeName := by
  have hall := mapM_eq_some_iff.mp h
  clear h
  generalize p.nodeDef.valueElements = defInputs at hall ⊢
  induction hall with
  | nil => rfl
  | cons hinput _ ih => rw [List.map_cons, List.map_cons, (inputTree?_declared hinput).2, ih]

/-- A site is a place, apart from the node graphs around it. -/
structure Site.IsPlace (s : Site) (p : Place) : Prop where
  keyPrefix : s.keyPrefix = p.scope.keyPrefix
  graph : s.graph = p.scope.graph
  name : s.name = p.name

/-- A job is a plan, apart from the node graphs around it. -/
structure Job.IsPlan (j : Job) (p : TreePlan) : Prop where
  keyPrefix : j.keyPrefix = p.scope.keyPrefix
  graph : j.graph = p.scope.graph
  key : j.key = p.key
  inst : j.inst = p.inst.outline
  nodeDef : j.nodeDef = p.nodeDef
  type : j.type = p.type

section IsPlan

variable {s : Site} {j : Job} {place : Place} {p : TreePlan} {e nodeDef : Element}

theorem Site.IsPlace.path_eq (h : s.IsPlace place) : s.path = place.path := by
  rw [Site.path, Place.path, h.graph, h.name]

theorem Site.IsPlace.key_eq (h : s.IsPlace place) : s.key = place.key := by
  rw [Site.key, Place.key, h.keyPrefix, h.path_eq]

theorem Site.IsPlace.node (h : s.IsPlace place) :
    (Job.ofNode s e nodeDef).IsPlan (.ofNode place e nodeDef) :=
  ⟨h.keyPrefix, h.graph, h.key_eq, rfl, rfl, rfl⟩

theorem Site.IsPlace.conversion (h : s.IsPlace place) (own : NodeTree) :
    (Job.ofConversion s nodeDef own.type).IsPlan (.ofConversion place own nodeDef) := by
  refine ⟨h.keyPrefix, h.graph, ?_, rfl, rfl, rfl⟩
  show s.keyPrefix ++ conversionPath s.path = place.scope.keyPrefix ++ conversionPath place.path
  rw [h.keyPrefix, h.path_eq]

theorem Job.IsPlan.reference (h : j.IsPlan p) {d : Document} {defInput : Element}
    (hinput : j.inputSite? d defInput = some s) : p.inst.connection? defInput.name = none ∧
      ∃ target, p.reference d defInput = .place target ∧ s.IsPlace target := by
  have hlink : j.inst.link d j.graph defInput = p.inst.link d p.scope.graph defInput := by
    rw [h.inst, outline_link, h.graph]
  refine ⟨?_, ?_⟩
  · unfold Job.inputSite? at hinput
    rw [h.inst, outline_connection?] at hinput
    cases hadded : p.inst.connection? defInput.name with
    | none => rfl
    | some source =>
      rw [hadded] at hinput
      cases hinput
  · obtain ⟨-, hbegin, ⟨hgraph, hnode⟩ | houtput⟩ := Job.inputSite?_spec hinput
    · refine ⟨⟨p.scope, s.name⟩, ?_, hbegin.trans h.keyPrefix, hgraph.trans h.graph, rfl⟩
      rw [TreePlan.reference, ← hlink, hnode]
      rfl
    · refine ⟨⟨{ p.scope with graph := s.graph, interface? := none }, s.name⟩, ?_,
        hbegin.trans h.keyPrefix, rfl, rfl⟩
      rw [TreePlan.reference, ← hlink, houtput]
      rfl

theorem Job.IsPlan.inner (h : j.IsPlan p) (hinner : j.innerSite? r = some s)
    (inputs : List (TreeInput NodeTree)) :
    expansion? r p.nodeDef.name = some (s.graph, s.name) ∧
      s.IsPlace (p.inner inputs s.graph s.name) := by
  obtain ⟨hexpansion, -, hbegin⟩ := Job.innerSite?_spec hinner
  refine ⟨h.nodeDef ▸ hexpansion, hbegin.trans ?_, rfl, rfl⟩
  rw [h.key]
  rfl

/-- A plan that unfolds asks for the places of all sites to which its job leads, and their trees are
found where its own one is. -/
theorem Job.IsPlan.exists_place {depth : Nat} (h : j.IsPlan p) (hplan : Planned r path p)
    (htree : p.tree? r (placeTree? r depth) = some tree) (hs : s ∈ j.targets r) :
    ∃ place, Asked r path (.place place) ∧ s.IsPlace place ∧
      (placeTree? r depth place).isSome := by
  obtain ⟨inputs, hinputs, htree⟩ := Option.bind_eq_some_iff.mp htree
  rcases Job.mem_targets.mp hs with ⟨defInput, hmem, hinput⟩ | hinner
  · obtain ⟨hadded, target, href, hplace⟩ := h.reference hinput
    have hmem' := h.nodeDef ▸ hmem
    obtain ⟨input, hinput⟩ := exists_of_mapM hinputs defInput hmem'
    simp only [TreePlan.inputTree?, hadded, href] at hinput
    obtain ⟨source, hsource, -⟩ := Option.map_eq_some_iff.mp hinput
    exact ⟨target, .input hplan hmem' hadded href, hplace, Option.isSome_of_eq_some hsource⟩
  · obtain ⟨hexpansion, hplace⟩ := h.inner hinner inputs
    rw [hexpansion] at htree
    exact ⟨_, .inner hplan hinputs hexpansion, hplace, Option.isSome_of_eq_some htree⟩

theorem Job.IsPlan.innerSite?_eq_none (h : j.IsPlan p) (hinner : j.innerSite? r = none) :
    expansion? r p.nodeDef.name = none := by
  rw [← h.nodeDef]
  exact Option.map_eq_none_iff.mp hinner

theorem Job.IsPlan.signature_eq (h : j.IsPlan p) (hunfolds : p.Unfolds r tree)
    (hinner : j.innerSite? r = none) : j.signature = treeSignature tree := by
  cases hunfolds.cases with
  | single hinputs _ =>
    rw [Job.signature, treeSignature, TreePlan.node, inputTrees?_types hinputs, h.nodeDef, h.type]
  | inner _ hexpansion _ => cases (h.innerSite?_eq_none hinner).symm.trans hexpansion

/-- The tree of a plan is that of the place behind the output of the node graph in its place. -/
theorem Job.IsPlan.inner_unfolds (h : j.IsPlan p) (hplan : Planned r path p)
    (hunfolds : p.Unfolds r tree) (hinner : j.innerSite? r = some s) :
    ∃ place, Asked r path (.place place) ∧ s.IsPlace place ∧
      Task.Unfolds r (.place place) tree := by
  cases hunfolds.cases with
  | single _ hnone => cases hnone.symm.trans (h.inner hinner []).1
  | @inner _ inputs _ _ _ hinputs hexpansion htree =>
    obtain ⟨hexpansion', hplace⟩ := h.inner hinner inputs
    obtain ⟨rfl, rfl⟩ := Prod.mk.inj (Option.some.inj (hexpansion.symm.trans hexpansion'))
    exact ⟨_, .inner hplan hinputs hexpansion, hplace, htree⟩

theorem conversionPlan?_eq {own : NodeTree} {sig : Signature} (hsig : sig = treeSignature own) :
    conversionPlan? r place e own =
      (conversionOf? r e sig.inputs sig.type).map (.ofConversion place own) := by
  rw [hsig]
  rfl

/-- The conversion that is planned after a tree is that for the types of the node. -/
theorem conversionPlan?_eq_some (place : Place) {own : NodeTree} {sig : Signature}
    {conversion : Element} (hsig : sig = treeSignature own)
    (hconversion : conversionOf? r e sig.inputs sig.type = some conversion) :
    conversionPlan? r place e own = some (.ofConversion place own conversion) := by
  rw [conversionPlan?_eq hsig, hconversion]
  rfl

end IsPlan

section Exact

variable {depth : Nat}

mutual

theorem Reached.exists_place (hnames : PlainNames r.document path)
    (hroot : elementTree? r depth path = some tree) :
    ∀ {s : Site}, Reached r path s → ∃ p, Asked r path (.place p) ∧ s.IsPlace p
  | _, .start hstart => ⟨_, .start hstart, rfl, rfl, rfl⟩
  | _, .target hjob htarget => by
    obtain ⟨p, hplan, hj⟩ := hjob.exists_plan hnames hroot
    obtain ⟨t, n, htree⟩ := hplan.unfolds hroot
    obtain ⟨q, hq, hplace, -⟩ := hj.exists_place hplan htree htarget
    exact ⟨q, hq, hplace⟩

theorem Assigned.exists_plan (hnames : PlainNames r.document path)
    (hroot : elementTree? r depth path = some tree) :
    ∀ {owner : Option Site} {j : Job}, Assigned r path owner j →
      ∃ p, Planned r path p ∧ j.IsPlan p
  | _, _, .start hstart => ⟨_, .start hstart, rfl, rfl, rfl, rfl, rfl, rfl⟩
  | _, _, .node hsite helement hdef => by
    obtain ⟨p, hp, hplace⟩ := hsite.exists_place hnames hroot
    exact ⟨_, .node hp (hplace.path_eq ▸ helement) hdef, hplace.node⟩
  | _, _, .conversion hsite helement hdef hyields hconversion => by
    obtain ⟨p, hp, hplace⟩ := hsite.exists_place hnames hroot
    rw [hplace.path_eq] at helement
    obtain ⟨own, hown⟩ := (Planned.node hp helement hdef).unfolds hroot
    have hsig := hyields.eq_signature hnames hroot (.node hp helement hdef) hplace.node hown
    obtain ⟨n, htree⟩ := hown
    have hplan := conversionPlan?_eq_some p hsig hconversion
    exact ⟨_, .conversion hp helement hdef htree hplan, hsig ▸ hplace.conversion own⟩

theorem Yields.eq_signature (hnames : PlainNames r.document path)
    (hroot : elementTree? r depth path = some tree) :
    ∀ {j : Job} {sig : Signature}, Yields r path j sig → ∀ {p : TreePlan} {t : NodeTree},
      Planned r path p → j.IsPlan p → p.Unfolds r t → sig = treeSignature t
  | _, _, .single hinner, _, _, _, hj, hunfolds => hj.signature_eq hunfolds hinner
  | _, _, .inner hinner hstored, _, _, hplan, hj, hunfolds => by
    obtain ⟨q, hq, hplace, htree⟩ := hj.inner_unfolds hplan hunfolds hinner
    exact hstored.eq_signature hnames hroot hq hplace.key_eq htree

theorem Stored.eq_signature (hnames : PlainNames r.document path)
    (hroot : elementTree? r depth path = some tree) :
    ∀ {key : String} {sig : Signature}, Stored r path key sig → ∀ {p : Place} {t : NodeTree},
      Asked r path (.place p) → key = p.key → Task.Unfolds r (.place p) t → sig = treeSignature t
  | _, _, .undefined hsite helement hdef, p, t, hp, hkey, htree => by
    obtain ⟨q, hq, hplace⟩ := hsite.exists_place hnames hroot
    obtain rfl := place_eq hnames hq hp (hplace.key_eq.symm.trans hkey)
    rw [hplace.path_eq] at helement
    rw [unfolds_undefined htree helement hdef]
    rfl
  | _, _, .node hsite helement hdef hyields hconversion, p, t, hp, hkey, htree => by
    obtain ⟨q, hq, hplace⟩ := hsite.exists_place hnames hroot
    obtain rfl := place_eq hnames hq hp (hplace.key_eq.symm.trans hkey)
    rw [hplace.path_eq] at helement
    obtain ⟨own, hown, hconverted⟩ := unfolds_defined htree helement hdef
    have hsig := hyields.eq_signature hnames hroot (.node hq helement hdef) hplace.node hown
    rcases hconverted with ⟨-, rfl⟩ | ⟨plan, hplan, -⟩
    · exact hsig
    · rw [conversionPlan?_eq hsig, hconversion] at hplan
      cases hplan
  | _, _, .conversion hsite helement hdef hyields hconversion hyields', p, t, hp, hkey, htree => by
    obtain ⟨q, hq, hplace⟩ := hsite.exists_place hnames hroot
    obtain rfl := place_eq hnames hq hp (hplace.key_eq.symm.trans hkey)
    rw [hplace.path_eq] at helement
    obtain ⟨own, hown, hconverted⟩ := unfolds_defined htree helement hdef
    have hsig := hyields.eq_signature hnames hroot (.node hq helement hdef) hplace.node hown
    have hplan := conversionPlan?_eq_some q hsig hconversion
    rcases hconverted with ⟨hnone, -⟩ | ⟨plan, hsome, hunfolds⟩
    · cases hplan.symm.trans hnone
    · obtain rfl := Option.some.inj (hplan.symm.trans hsome)
      obtain ⟨n, hn⟩ := hown
      exact hyields'.eq_signature hnames hroot (.conversion hq helement hdef hn hplan)
        (hsig ▸ hplace.conversion own) hunfolds
  | _, _, .geometry hsource, p, t, hp, hkey, _ => by
    obtain ⟨source, hproperty, -⟩ := Option.bind_eq_some_iff.mp hsource
    have hknown := Option.isSome_of_eq_some hproperty
    exact absurd hkey.symm (place_key_ne_geometricKey hnames (hp.origin hnames) hknown)

end

end Exact

/-- With plain names, all sites exist that are reached for a graph that is built. -/
theorem isSome_of_graphWithin {depth : Nat} {g : ShaderGraph} {s : Site}
    (hnames : PlainNames r.document path) (h : graphWithin r depth path = .ok g)
    (hs : Reached r path s) : (r.document.element? s.path).isSome := by
  obtain ⟨tree, n, htree⟩ := unfolds_of_plainNames hnames h
  have hroot := (htree n (Nat.le_refl n)).1
  obtain ⟨p, hp, hplace⟩ := hs.exists_place hnames hroot
  obtain ⟨t, ht⟩ := hp.unfolds hroot p rfl
  obtain ⟨e, helement⟩ := unfolds_element ht
  rw [hplace.path_eq, helement]
  rfl

/-- With plain names, what can be drawn is drawn exactly if no site that is reached is missing. -/
theorem build_isOk_iff (hnames : PlainNames r.document path) (hdrawable : Drawable r path) :
    (∃ g, build r path = .ok g) ↔
      ∀ s, Reached r path s → (r.document.element? s.path).isSome := by
  constructor
  · rintro ⟨g, hg⟩ s hs
    exact isSome_of_graphWithin hnames hg hs
  · intro hpresent
    have hfree : Unobstructed r path :=
      .of_plainNames hnames fun s _ hs _ => hpresent s hs
    obtain ⟨root, b, hbuild⟩ := exists_buildWithin hdrawable hfree
    exact ⟨b.graph path root, map_ok.mpr ⟨(root, b), hbuild, rfl⟩⟩

end MaterialViewer.Graph
