import Mathlib.Data.List.Nodup
import MaterialViewer.Proofs.Graph.FreshName
import MaterialViewer.Proofs.Graph.Steps

/-!
# Proofs: what nodes with parameters stand for

The path of a node does not tell nodes apart. A node graph that stands in the place of several nodes
is walked through for each of them, and the nodes found are different but have the same paths. What
tells nodes apart is their origin: an element in a scope of keys, the conversion that follows it, or
the shader reference that is drawn.

The walk meets each element once in each scope of keys, for it looks for the key among the nodes that
are built and those that are being built. So an origin belongs to the key under which it is found, and
none is used before its key is met: this is the invariant that each part of the builder keeps.
-/

namespace MaterialViewer.Graph

/-- What a node with parameters stands for. -/
inductive NodeOrigin
  /-- The shader reference that is drawn. -/
  | drawn (path : String)
  /-- An element in a scope of keys. -/
  | node (keyPrefix path : String)
  /-- The conversion that follows an element in a scope of keys. -/
  | conversion (keyPrefix path : String)
deriving DecidableEq

namespace NodeOrigin

/-- The path of the element behind an origin. -/
def element : NodeOrigin → String
  | drawn path | node _ path | conversion _ path => path

/-- The path of the node. -/
def path : NodeOrigin → String
  | drawn path | node _ path => path
  | conversion _ path => conversionPath path

/-- The key under which the element is met. -/
def key? : NodeOrigin → Option String
  | drawn _ => none
  | node keyPrefix path | conversion keyPrefix path => some (keyPrefix ++ path)

end NodeOrigin

/-- The node for a key is built or being built. -/
def Build.Met (b : Build) (key : String) : Prop :=
  key ∈ b.inProgress ∨ (Ordered.get? key b.built).isSome

/-- No node for the key of an origin is built or being built. -/
def NodeOrigin.IsNew (o : NodeOrigin) (b : Build) : Prop := ∀ key, o.key? = some key → ¬ b.Met key

/-- Nodes with these names have these origins, all of them different, and all parameters are of such
nodes. -/
structure Traced (d : Document) (origins : List (String × NodeOrigin)) (b : Build) : Prop where
  named : ∀ x ∈ origins, x.1 ∈ b.names
  names : (origins.map (·.1)).Nodup
  distinct : (origins.map (·.2)).Nodup
  met : ∀ x ∈ origins, ∀ key, x.2.key? = some key → b.Met key
  element : ∀ x ∈ origins, (d.element? x.2.element).isSome
  parameter : ∀ p ∈ b.parameters, ∃ o, (p.nodeName, o) ∈ origins ∧ o.path = p.nodePath

/-- What a part of the builder does to the origins. New origins satisfy `own`, or their keys had not
been met. -/
structure Continues (d : Document) (own : NodeOrigin → Prop) (origins : List (String × NodeOrigin))
    (b : Build) (origins' : List (String × NodeOrigin)) (b' : Build) : Prop where
  traced : Traced d origins' b'
  kept : origins ⊆ origins'
  names : b.names ⊆ b'.names
  progress : b.inProgress ⊆ b'.inProgress
  built : ∀ key, (Ordered.get? key b.built).isSome → (Ordered.get? key b'.built).isSome
  new : ∀ x ∈ origins', x ∈ origins ∨ own x.2 ∨ x.2.IsNew b

/-- No origin but those whose keys are new. -/
def noOrigin : NodeOrigin → Prop := fun _ => False

variable {d : Document} {own : NodeOrigin → Prop} {origins origins₁ origins₂ : List (String × NodeOrigin)}
  {o : NodeOrigin} {b b₁ b₂ b' : Build} {index : Nat} {r : Request} {walk : Walk} {scope : Scope}

/-! ## Continuing -/

theorem Continues.refl (h : Traced d origins b) (own : NodeOrigin → Prop) :
    Continues d own origins b origins b :=
  ⟨h, fun _ hx => hx, fun _ hn => hn, fun _ hk => hk, fun _ hk => hk, fun _ hx => .inl hx⟩

theorem Continues.met (h : Continues d own origins b origins₁ b₁) {key : String}
    (hkey : b.Met key) : b₁.Met key :=
  hkey.imp (fun hin => h.progress hin) (h.built key)

theorem Continues.trans (h₁ : Continues d own origins b origins₁ b₁)
    (h₂ : Continues d own origins₁ b₁ origins₂ b₂) : Continues d own origins b origins₂ b₂ := by
  refine ⟨h₂.traced, List.Subset.trans h₁.kept h₂.kept, List.Subset.trans h₁.names h₂.names,
    List.Subset.trans h₁.progress h₂.progress, fun key hkey => h₂.built key (h₁.built key hkey), ?_⟩
  intro x hx
  rcases h₂.new x hx with hold | hown | hnew
  · exact h₁.new x hold
  · exact .inr (.inl hown)
  · exact .inr (.inr fun key hkey hmet => hnew key hkey (h₁.met hmet))

theorem Continues.mono (own' : NodeOrigin → Prop) (h : Continues d own origins b origins₁ b₁)
    (hown : ∀ o, own o → own' o ∨ o.IsNew b) : Continues d own' origins b origins₁ b₁ := by
  refine { h with new := fun x hx => ?_ }
  rcases h.new x hx with hold | ho | hnew
  · exact .inl hold
  · exact .inr (hown _ ho)
  · exact .inr (.inr hnew)

theorem Continues.weaken (h : Continues d noOrigin origins b origins₁ b₁) :
    Continues d own origins b origins₁ b₁ :=
  h.mono own fun _ ho => ho.elim

/-- An origin that is new is not in use. -/
theorem Traced.not_mem (h : Traced d origins b) (hnew : o.IsNew b) {key : String}
    (hkey : o.key? = some key) : o ∉ origins.map (·.2) := by
  intro hmem
  obtain ⟨x, hx, rfl⟩ := List.mem_map.mp hmem
  exact hnew key hkey (h.met x hx key hkey)

/-! ## Changes of the build -/

/-- A build that differs in nothing that origins are about. -/
theorem Continues.of_eq (h : Traced d origins b) (hnames : b.names ⊆ b'.names)
    (hprogress : b.inProgress ⊆ b'.inProgress)
    (hbuilt : ∀ key, (Ordered.get? key b.built).isSome → (Ordered.get? key b'.built).isSome)
    (hparameters : b'.parameters = b.parameters) :
    Continues d own origins b origins b' := by
  refine ⟨⟨fun x hx => hnames (h.named x hx), h.names, h.distinct, fun x hx key hkey => ?_,
    h.element, hparameters ▸ h.parameter⟩, fun _ hx => hx, hnames, hprogress, hbuilt,
    fun _ hx => .inl hx⟩
  exact (h.met x hx key hkey).imp (fun hin => hprogress hin) (hbuilt key)

theorem freshName_continues {base name : String} (hname : freshName base b = .ok (name, b'))
    (h : Traced d origins b) : Continues d own origins b origins b' := by
  obtain ⟨-, rfl⟩ := freshName_ok.mp hname
  exact .of_eq h (List.subset_append_left _ _) (fun _ hk => hk) (fun _ hk => hk) rfl

theorem pushNode_continues {node : ShaderNode} (hpush : pushNode node b = .ok (index, b'))
    (h : Traced d origins b) : Continues d own origins b origins b' := by
  obtain ⟨-, rfl⟩ := pushNode_ok.mp hpush
  exact .of_eq h (fun _ hn => hn) (fun _ hk => hk) (fun _ hk => hk) rfl

theorem beginNode_continues {key : String} (hbegin : beginNode key b = .ok ((), b'))
    (h : Traced d origins b) : Continues d own origins b origins b' := by
  obtain rfl := beginNode_ok.mp hbegin
  exact .of_eq h (fun _ hn => hn) (fun _ hk => List.mem_cons_of_mem _ hk) (fun _ hk => hk) rfl

theorem isSome_get?_put {key key' : String} {built : List (String × Nat)}
    (h : (Ordered.get? key' built).isSome) :
    (Ordered.get? key' (Ordered.put key index built)).isSome := by
  by_cases hk : key' = key
  · rw [hk, Ordered.get?_put_self]
    rfl
  · rwa [Ordered.get?_put_of_ne hk]

theorem recordBuilt_continues {key : String} (hrecord : recordBuilt key index b = .ok ((), b'))
    (h : Traced d origins b) : Continues d own origins b origins b' := by
  obtain rfl := recordBuilt_ok.mp hrecord
  exact .of_eq h (fun _ hn => hn) (fun _ hk => hk) (fun _ hk => isSome_get?_put hk) rfl

/-- A name that was just taken can be given an origin that is not in use. -/
theorem freshName_given {base name : String} (hname : freshName base b = .ok (name, b'))
    (h : Traced d origins b) (hunused : o ∉ origins.map (·.2))
    (hmet : ∀ key, o.key? = some key → b.Met key) (helement : (d.element? o.element).isSome) :
    Continues d (· = o) origins b (origins ++ [(name, o)]) b' := by
  obtain ⟨rfl, rfl⟩ := freshName_ok.mp hname
  have hfresh : FreshName.fresh b.names base ∉ origins.map (·.1) := by
    intro hmem
    obtain ⟨x, hx, hxname⟩ := List.mem_map.mp hmem
    exact FreshName.fresh_not_mem b.names base (hxname ▸ h.named x hx)
  refine ⟨⟨?_, ?_, ?_, ?_, ?_, ?_⟩, List.subset_append_left _ _, List.subset_append_left _ _,
    fun _ hk => hk, fun _ hk => hk, ?_⟩
  · refine List.forall_mem_append.mpr ⟨fun x hx => List.mem_append_left _ (h.named x hx), ?_⟩
    exact List.forall_mem_singleton.mpr (List.mem_append_right _ (List.mem_singleton_self _))
  · rw [List.map_append, List.map_singleton, ← List.concat_eq_append]
    exact h.names.concat hfresh
  · rw [List.map_append, List.map_singleton, ← List.concat_eq_append]
    exact h.distinct.concat hunused
  · exact List.forall_mem_append.mpr ⟨h.met, List.forall_mem_singleton.mpr hmet⟩
  · exact List.forall_mem_append.mpr ⟨h.element, List.forall_mem_singleton.mpr helement⟩
  · intro p hp
    obtain ⟨o', ho', hpath⟩ := h.parameter p hp
    exact ⟨o', List.mem_append_left _ ho', hpath⟩
  · intro x hx
    rcases List.mem_append.mp hx with hx | hx
    · exact .inl hx
    · exact .inr (.inl (by rw [List.mem_singleton.mp hx]))

/-! ## Inputs -/

/-- What the walk is expected to do. -/
def WalkTraced (d : Document) (walk : Walk) : Prop :=
  ∀ ⦃scope name isRoot b index b' origins⦄, walk scope name isRoot b = .ok (index, b') →
    Traced d origins b → ∃ origins', Continues d noOrigin origins b origins' b'

theorem geometry_continues {property : String} {found? : Option Nat}
    (hstep : GeometryStep r property b found? b') (h : Traced d origins b) :
    Continues d own origins b origins b' := by
  cases hstep with
  | unknown _ => exact .refl h own
  | known _ _ => exact .refl h own
  | new _ _ hname hpush hrecord =>
    have hc₁ : Continues d own origins b origins _ := freshName_continues hname h
    have hc₂ := hc₁.trans (pushNode_continues hpush hc₁.traced)
    exact hc₂.trans (recordBuilt_continues hrecord hc₂.traced)

theorem classify_continues {p : Parameter} {isAuthored : Bool} {binding : InputBinding}
    (hstep : ClassifyStep r p isAuthored b binding b') (h : Traced d origins b)
    (hp : (p.nodeName, o) ∈ origins) (hpath : o.path = p.nodePath) :
    Continues d own origins b origins b' := by
  cases hstep with
  | fixed _ => exact .refl h own
  | registered _ =>
    refine ⟨⟨h.named, h.names, h.distinct, h.met, h.element, ?_⟩, fun _ hx => hx, fun _ hn => hn,
      fun _ hk => hk, fun _ hk => hk, fun _ hx => .inl hx⟩
    exact List.forall_mem_append.mpr ⟨h.parameter, List.forall_mem_singleton.mpr ⟨o, hp, hpath⟩⟩

theorem input_continues (hwalk : WalkTraced d walk) {inst : Instance Nat} {name : String}
    {defInput : Element} {input : ShaderInput}
    (hstep : InputStep r walk scope inst name o.path defInput b input b') (h : Traced d origins b)
    (ho : (name, o) ∈ origins) : ∃ origins', Continues d own origins b origins' b' := by
  cases hstep with
  | added _ => exact ⟨origins, .refl h own⟩
  | node _ _ hrun =>
    obtain ⟨origins', hc⟩ := hwalk hrun h
    exact ⟨origins', hc.weaken⟩
  | outer _ _ => exact ⟨origins, .refl h own⟩
  | own _ _ hown =>
    cases hown with
    | geometry _ hgeometry => exact ⟨origins, geometry_continues hgeometry h⟩
    | bound _ hclassify => exact ⟨origins, classify_continues hclassify h ho rfl⟩

theorem inputs_continues (hwalk : WalkTraced d walk) {inst : Instance Nat} {name : String}
    {defInputs : List Element} {inputs : List ShaderInput}
    (hstep : InputsStep r walk scope inst name o.path defInputs b inputs b')
    (h : Traced d origins b) (ho : (name, o) ∈ origins) :
    ∃ origins', Continues d own origins b origins' b' := by
  induction hstep generalizing origins with
  | nil => exact ⟨origins, .refl h own⟩
  | cons hinput _ ih =>
    obtain ⟨origins₁, hc₁⟩ := input_continues hwalk hinput h ho
    obtain ⟨origins₂, hc₂⟩ := ih hc₁.traced (hc₁.kept ho)
    exact ⟨origins₂, hc₁.trans hc₂⟩

/-! ## Nodes -/

/-- A planned node is given an origin that is not in use. -/
theorem plan_continues (hwalk : WalkTraced d walk) {p : Plan}
    (hstep : PlanStep r walk p b index b') (h : Traced d origins b) (hpath : p.path = o.path)
    (hunused : o ∉ origins.map (·.2)) (hmet : ∀ key, o.key? = some key → b.Met key)
    (helement : (d.element? o.element).isSome) :
    ∃ origins', Continues d (· = o) origins b origins' b' := by
  obtain ⟨hname, hinputs, hadd⟩ := hstep
  have hc₁ := freshName_given hname h hunused hmet helement
  rw [hpath] at hinputs
  obtain ⟨origins₂, hc₂⟩ : ∃ origins', Continues d (· = o) _ _ origins' _ :=
    inputs_continues hwalk hinputs hc₁.traced
      (List.mem_append_right _ (List.mem_singleton_self _))
  have hc := hc₁.trans hc₂
  cases hadd with
  | inner _ hrun =>
    obtain ⟨origins', hc'⟩ := hwalk hrun hc.traced
    exact ⟨origins', hc.trans hc'.weaken⟩
  | single _ _ hpush => exact ⟨origins₂, hc.trans (pushNode_continues hpush hc.traced)⟩

/-- The origins of a node and of the conversion that follows it. -/
def ofElement (keyPrefix path : String) : NodeOrigin → Prop :=
  fun o => o = .node keyPrefix path ∨ o = .conversion keyPrefix path

theorem element_continues (hwalk : WalkTraced r.document walk) {e : Element} {name : String}
    {isRoot : Bool}
    (hstep : ElementStep r walk scope e (scope.keyOf name) (scope.pathOf name) isRoot b index b')
    (h : Traced r.document origins b) (helement : (r.document.element? (scope.pathOf name)).isSome)
    (hmet : b.Met (scope.keyOf name))
    (hunused : ∀ o, ofElement scope.keyPrefix (scope.pathOf name) o → o ∉ origins.map (·.2)) :
    ∃ origins', Continues r.document (ofElement scope.keyPrefix (scope.pathOf name)) origins b
      origins' b' := by
  have hkey : ∀ key, some (scope.keyOf name) = some key → b.Met key :=
    fun key hkey => Option.some.inj hkey ▸ hmet
  cases hstep with
  | undefined _ _ hname hpush =>
    have hc₁ : Continues r.document (ofElement scope.keyPrefix (scope.pathOf name)) origins b
        origins _ := freshName_continues hname h
    exact ⟨origins, hc₁.trans (pushNode_continues hpush hc₁.traced)⟩
  | defined _ hplan hconversion =>
    obtain ⟨origins₁, hc₁⟩ := plan_continues (o := .node scope.keyPrefix (scope.pathOf name)) hwalk
      hplan h rfl (hunused _ (.inl rfl)) hkey helement
    have hc := hc₁.mono (ofElement scope.keyPrefix (scope.pathOf name)) fun o ho => .inl (.inl ho)
    cases hconversion with
    | missing _ => exact ⟨origins₁, hc⟩
    | unneeded _ _ => exact ⟨origins₁, hc⟩
    | needed _ _ hplan' =>
      have hunused₁ : NodeOrigin.conversion scope.keyPrefix (scope.pathOf name) ∉
          origins₁.map (·.2) := by
        intro hmem
        obtain ⟨x, hx, hxorigin⟩ := List.mem_map.mp hmem
        rcases hc₁.new x hx with hold | hnode | hnew
        · exact hunused _ (.inr rfl) (hxorigin ▸ List.mem_map_of_mem hold)
        · rw [hnode] at hxorigin
          cases hxorigin
        · exact hnew (scope.keyOf name) (by rw [hxorigin]; rfl) hmet
      obtain ⟨origins₂, hc₂⟩ := plan_continues
        (o := .conversion scope.keyPrefix (scope.pathOf name)) hwalk hplan' hc.traced rfl hunused₁
        (fun key hk => hc.met (hkey key hk)) helement
      exact ⟨origins₂, hc.trans (hc₂.mono _ fun o ho => .inl (.inr ho))⟩

theorem buildNodeWith_traced (hwalk : WalkTraced r.document walk) :
    WalkTraced r.document (buildNodeWith r walk) := by
  intro scope name isRoot b index b' origins hrun h
  cases buildNodeWith_ok hrun with
  | known _ => exact ⟨origins, .refl h _⟩
  | @new e _ b₁ b₂ b₃ _ hbuilt hprogress hbegin helement hstep hend hrecord =>
    have hnew : ¬ b.Met (scope.keyOf name) := by
      rintro (hin | hin)
      · exact hprogress hin
      · rw [hbuilt] at hin
        cases hin
    have hisNew : ∀ o, ofElement scope.keyPrefix (scope.pathOf name) o → o.IsNew b := by
      rintro o (rfl | rfl) key hkey <;> exact Option.some.inj hkey ▸ hnew
    have hunused : ∀ o, ofElement scope.keyPrefix (scope.pathOf name) o →
        o ∉ origins.map (·.2) := by
      intro o ho
      have hkey : o.key? = some (scope.keyOf name) := by rcases ho with rfl | rfl <;> rfl
      exact h.not_mem (hisNew o ho) hkey
    have hc₁ : Continues r.document (ofElement scope.keyPrefix (scope.pathOf name)) origins b
        origins _ := beginNode_continues hbegin h
    obtain rfl := beginNode_ok.mp hbegin
    obtain ⟨origins', hc₂⟩ := element_continues hwalk hstep hc₁.traced (by rw [helement]; rfl)
      (.inl List.mem_cons_self) hunused
    have hc := (hc₁.trans hc₂).mono noOrigin fun o ho => .inr (hisNew o ho)
    -- The key is no longer in progress, but its node is built.
    obtain rfl := endNode_ok.mp hend
    obtain rfl := recordBuilt_ok.mp hrecord
    have ht := hc.traced
    refine ⟨origins', ⟨ht.named, ht.names, ht.distinct, fun x hx key hkey => ?_, ht.element,
      ht.parameter⟩, hc.kept, hc.names, fun key hkey => ?_,
      fun key hkey => isSome_get?_put (hc.built key hkey), hc.new⟩
    · by_cases hk : key = scope.keyOf name
      · rw [hk]
        exact .inr (by rw [Ordered.get?_put_self]; rfl)
      · exact (ht.met x hx key hkey).imp (List.mem_erase_of_ne hk).mpr isSome_get?_put
    · have hk : key ≠ scope.keyOf name := fun hk => hnew (.inl (hk ▸ hkey))
      exact (List.mem_erase_of_ne hk).mpr (hc.progress hkey)

theorem buildNode_traced (r : Request) (depth : Nat) :
    WalkTraced r.document (buildNode r depth) := by
  induction depth with
  | zero => exact fun _ _ _ _ _ _ _ hrun => absurd hrun throw_ok
  | succ depth ih => exact buildNodeWith_traced ih

theorem traced_empty (d : Document) : Traced d [] {} :=
  ⟨List.forall_mem_nil _, List.nodup_nil, List.nodup_nil, List.forall_mem_nil _,
    List.forall_mem_nil _, List.forall_mem_nil _⟩

/-- The nodes of all parameters have different origins, which tell their paths. -/
theorem buildWithin_traced {depth : Nat} {path : String} {root : Nat}
    (h : buildWithin r depth path = .ok (root, b)) : ∃ origins, Traced r.document origins b := by
  have hwalk := buildNode_traced r depth
  have hempty := traced_empty r.document
  cases buildRoot_ok h with
  | shaderRef helement _ _ hplan =>
    obtain ⟨origins, hc⟩ := plan_continues (o := .drawn path) hwalk hplan hempty rfl
      List.not_mem_nil nofun (by rw [NodeOrigin.element, helement]; rfl)
    exact ⟨origins, hc.traced⟩
  | output _ _ _ _ hrun =>
    obtain ⟨origins, hc⟩ := hwalk hrun hempty
    exact ⟨origins, hc.traced⟩
  | node _ _ _ hrun =>
    obtain ⟨origins, hc⟩ := hwalk hrun hempty
    exact ⟨origins, hc.traced⟩

end MaterialViewer.Graph
