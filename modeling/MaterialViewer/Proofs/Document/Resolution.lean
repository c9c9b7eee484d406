import MaterialViewer.Document.Implementation
import MaterialViewer.Proofs.Lists

/-!
# Proofs: the implementation that is chosen

That a node definition has an implementation is found out by one search, and which one it is by
another, over candidates that are sorted by how well they suit the target. Both agree: what has an
implementation resolves, and to the first record that is made for just the target, else to the first
that is made for no target in particular, else to the first node graph. First is meant among all
elements of the document, in their order.
-/

namespace MaterialViewer

variable {e : Element}

theorem Element.filled?_eq_some_iff {key value : String} :
    e.filled? key = some value ↔ e.attribute? key = some value ∧ value ≠ "" := by
  rw [Element.filled?, Option.filter_eq_some_iff, decide_eq_true_iff]

theorem Element.filled?_eq_none_iff {key : String} :
    e.filled? key = none ↔ e.attribute? key = none ∨ e.attribute? key = some "" := by
  rw [Element.filled?]
  cases e.attribute? key with
  | none => simp
  | some value => simp [Option.filter_some]

namespace Document

variable {d : Document} {target : Target} {nodeDef : String}

/-! ## Records and graphs -/

/-- The element implements a node definition by code in the language of a target. -/
def IsRecord (target : Target) (nodeDef : String) (e : Element) : Prop :=
  e.category = "implementation" ∧ e.attribute? "nodedef" = some nodeDef ∧
    e.attribute? "language" = some target.language

/-- The element is a record made for just this target. -/
def IsExact (target : Target) (nodeDef : String) (e : Element) : Prop :=
  IsRecord target nodeDef e ∧ e.attribute? "target" = some target.target ∧ target.target ≠ ""

/-- The element is a record made for no target in particular. -/
def IsGeneral (target : Target) (nodeDef : String) (e : Element) : Prop :=
  IsRecord target nodeDef e ∧ (e.attribute? "target" = none ∨ e.attribute? "target" = some "")

/-- The element implements a node definition by a graph, for every target. -/
def IsGraph (nodeDef : String) (e : Element) : Prop :=
  e.category = "nodegraph" ∧ e.attribute? "nodedef" = some nodeDef

instance : DecidablePred (IsRecord target nodeDef) := fun e =>
  inferInstanceAs (Decidable (e.category = "implementation" ∧ _ ∧ _))

instance : DecidablePred (IsExact target nodeDef) := fun e =>
  inferInstanceAs (Decidable (IsRecord target nodeDef e ∧ _ ∧ _))

instance : DecidablePred (IsGeneral target nodeDef) := fun e =>
  inferInstanceAs (Decidable (IsRecord target nodeDef e ∧ (_ ∨ _)))

instance : DecidablePred (IsGraph nodeDef) := fun e =>
  inferInstanceAs (Decidable (e.category = "nodegraph" ∧ _))

/-- An element is the first of a list that satisfies a property. -/
def IsFirstOf (p : Element → Prop) (es : List Element) (e : Element) : Prop :=
  ∃ front back, es = front ++ e :: back ∧ p e ∧ ∀ x ∈ front, ¬ p x

/-- What a node definition resolves to for a target. -/
inductive Chooses (d : Document) (nodeDef : String) (target : Target) : Implementation → Prop
  /-- The first record made for just the target, wherever it stands. -/
  | exact {record : Element} (hfirst : IsFirstOf (IsExact target nodeDef) d.elements record) :
      Chooses d nodeDef target (.ofRecord record)
  /-- The first record made for none in particular. -/
  | general {record : Element} (hexact : ∀ e ∈ d.elements, ¬ IsExact target nodeDef e)
      (hfirst : IsFirstOf (IsGeneral target nodeDef) d.elements record) :
      Chooses d nodeDef target (.ofRecord record)
  /-- The first node graph. -/
  | graph {graph : Element} (hexact : ∀ e ∈ d.elements, ¬ IsExact target nodeDef e)
      (hgeneral : ∀ e ∈ d.elements, ¬ IsGeneral target nodeDef e)
      (hfirst : IsFirstOf (IsGraph nodeDef) d.elements graph) :
      Chooses d nodeDef target (.graph graph.name)

/-! ## The searches -/

theorem IsFirstOf.congr {p q : Element → Prop} {es : List Element} (h : ∀ x ∈ es, p x ↔ q x)
    (hfirst : IsFirstOf p es e) : IsFirstOf q es e := by
  obtain ⟨front, back, rfl, he, hfront⟩ := hfirst
  refine ⟨front, back, rfl, (h e (by simp)).mp he, fun x hx hq => ?_⟩
  exact hfront x hx ((h x (by simp [hx])).mpr hq)

theorem find?_eq_some_iff_isFirstOf (p : Element → Prop) [DecidablePred p] {es : List Element} :
    es.find? (fun x => decide (p x)) = some e ↔ IsFirstOf p es e := by
  rw [List.find?_eq_some_iff_append, decide_eq_true_iff]
  constructor
  · rintro ⟨he, front, back, heq, hfront⟩
    exact ⟨front, back, heq, he, fun x hx => by simpa using hfront x hx⟩
  · rintro ⟨front, back, heq, he, hfront⟩
    exact ⟨he, front, back, heq, fun x hx => by simpa using hfront x hx⟩

/-- A record serves a target if it is made for it or for none in particular. -/
theorem serves_iff :
    (e.category = "implementation" ∧ implementsDef nodeDef e = true) ∧ target.accepts e = true ↔
      IsExact target nodeDef e ∨ IsGeneral target nodeDef e := by
  constructor
  · rintro ⟨⟨hcategory, hdef⟩, haccepts⟩
    rw [Target.accepts, Bool.and_eq_true, decide_eq_true_iff] at haccepts
    obtain ⟨hlanguage, htarget⟩ := haccepts
    have hrecord : IsRecord target nodeDef e :=
      ⟨hcategory, by simpa [implementsDef] using hdef, hlanguage⟩
    cases hfilled : e.filled? "target" with
    | none => exact .inr ⟨hrecord, Element.filled?_eq_none_iff.mp hfilled⟩
    | some value =>
      obtain ⟨hvalue, hne⟩ := Element.filled?_eq_some_iff.mp hfilled
      rw [hfilled] at htarget
      obtain rfl : value = target.target := by simpa using htarget
      exact .inl ⟨hrecord, hvalue, hne⟩
  · intro h
    have hrecord : IsRecord target nodeDef e := h.elim (·.1) (·.1)
    refine ⟨⟨hrecord.1, by simpa [implementsDef] using hrecord.2.1⟩, ?_⟩
    rw [Target.accepts, Bool.and_eq_true, decide_eq_true_iff]
    refine ⟨hrecord.2.2, ?_⟩
    rcases h with ⟨-, htarget⟩ | ⟨-, htarget⟩
    · rw [Element.filled?_eq_some_iff.mpr htarget]
      exact decide_eq_true rfl
    · rw [Element.filled?_eq_none_iff.mpr htarget]

/-- Of the records that serve a target, those with a target are made for just this one. -/
theorem serves_filled_iff :
    (IsExact target nodeDef e ∨ IsGeneral target nodeDef e) ∧ (e.filled? "target").isSome = true ↔
      IsExact target nodeDef e := by
  constructor
  · rintro ⟨hexact | hgeneral, hfilled⟩
    · exact hexact
    · rw [Element.filled?_eq_none_iff.mpr hgeneral.2] at hfilled
      exact absurd hfilled (by simp)
  · intro hexact
    exact ⟨.inl hexact, by rw [Element.filled?_eq_some_iff.mpr hexact.2, Option.isSome_some]⟩

/-- The candidates for a target, among all elements. -/
theorem candidates_eq :
    d.implementations.filter (fun record => implementsDef nodeDef record && target.accepts record) =
      d.elements.filter fun e => IsExact target nodeDef e ∨ IsGeneral target nodeDef e := by
  rw [implementations, elementsOf, Element.childrenOf, List.filter_filter, elements]
  refine List.filter_congr fun e _ => ?_
  rw [Bool.eq_iff_iff, decide_eq_true_iff, ← serves_iff]
  simp only [Bool.and_eq_true, decide_eq_true_iff]
  tauto

/-- The same record comes first when the candidates are sorted, in a stable way, so that those
without a target come last. -/
theorem implementationRecord?_eq_head?_mergeSort : d.implementationRecord? nodeDef target =
    ((d.implementations.filter fun record =>
      implementsDef nodeDef record && target.accepts record).mergeSort fun a b =>
        (a.filled? "target").isNone ≤ (b.filled? "target").isNone).head? := by
  rw [head?_mergeSort fun record : Element => (record.filled? "target").isNone]
  simp only [Option.not_isNone]
  rfl

theorem implementationRecord?_eq : d.implementationRecord? nodeDef target =
    (d.elements.find? fun e => IsExact target nodeDef e).or
      (d.elements.find? fun e => IsExact target nodeDef e ∨ IsGeneral target nodeDef e) := by
  unfold implementationRecord?
  dsimp only
  rw [candidates_eq, List.find?_filter, List.head?_filter]
  congr 2
  funext e
  rw [Bool.eq_iff_iff, decide_eq_true_iff, decide_eq_true_iff, decide_eq_true_iff]
  exact serves_filled_iff

theorem implementationRecord?_eq_some_iff {record : Element} :
    d.implementationRecord? nodeDef target = some record ↔
      IsFirstOf (IsExact target nodeDef) d.elements record ∨
        (∀ e ∈ d.elements, ¬ IsExact target nodeDef e) ∧
          IsFirstOf (IsGeneral target nodeDef) d.elements record := by
  rw [implementationRecord?_eq, Option.or_eq_some_iff, find?_eq_some_iff_isFirstOf,
    find?_eq_some_iff_isFirstOf, List.find?_eq_none]
  simp only [decide_eq_true_iff]
  refine or_congr_right (and_congr_right fun hexact => ?_)
  have hserves : ∀ e ∈ d.elements,
      IsExact target nodeDef e ∨ IsGeneral target nodeDef e ↔ IsGeneral target nodeDef e :=
    fun e he => or_iff_right (hexact e he)
  exact ⟨.congr hserves, .congr fun e he => (hserves e he).symm⟩

theorem implementationRecord?_eq_none_iff :
    d.implementationRecord? nodeDef target = none ↔
      (∀ e ∈ d.elements, ¬ IsExact target nodeDef e) ∧
        ∀ e ∈ d.elements, ¬ IsGeneral target nodeDef e := by
  rw [implementationRecord?_eq, Option.or_eq_none_iff, List.find?_eq_none, List.find?_eq_none]
  simp only [decide_eq_true_iff, not_or]
  exact ⟨fun h => ⟨h.1, fun e he => (h.2 e he).2⟩, fun h => ⟨h.1, fun e he => ⟨h.1 e he, h.2 e he⟩⟩⟩

theorem implementingGraph?_eq : d.implementingGraph? nodeDef =
    d.elements.find? fun e => IsGraph nodeDef e := by
  rw [implementingGraph?, nodeGraphs, elementsOf, Element.childrenOf, List.find?_filter, elements]
  congr 1
  funext e
  rw [decide_eq_decide, implementsDef, decide_eq_true_iff, decide_eq_true_iff]
  rfl

theorem implementingGraph?_eq_some_iff {graph : Element} :
    d.implementingGraph? nodeDef = some graph ↔ IsFirstOf (IsGraph nodeDef) d.elements graph := by
  rw [implementingGraph?_eq, find?_eq_some_iff_isFirstOf]

/-! ## Existence and choice -/

/-- Some record serves a target if and only if one is found for it. -/
theorem any_implementations_iff :
    (d.implementations.any fun record =>
      implementsDef nodeDef record && target.accepts record) = true ↔
        ∃ record, d.implementationRecord? nodeDef target = some record := by
  rw [List.any_eq_true, ← Option.isSome_iff_exists, Option.isSome_iff_ne_none, Ne,
    implementationRecord?, Option.or_eq_none_iff, List.head?_eq_none_iff]
  constructor
  · rintro ⟨record, hmem, hserves⟩ ⟨-, hnil⟩
    exact List.filter_eq_nil_iff.mp hnil record hmem hserves
  · intro hne
    by_contra hnone
    have hnil : (d.implementations.filter fun record =>
        implementsDef nodeDef record && target.accepts record) = [] :=
      List.filter_eq_nil_iff.mpr fun record hmem hserves => hnone ⟨record, hmem, hserves⟩
    exact hne ⟨by rw [hnil, List.find?_nil], hnil⟩

/-- The choice is the record that is searched for, or else the graph. -/
theorem chooses_iff {i : Implementation} :
    d.Chooses nodeDef target i ↔
      (∃ record, d.implementationRecord? nodeDef target = some record ∧ i = .ofRecord record) ∨
        d.implementationRecord? nodeDef target = none ∧
          ∃ graph, d.implementingGraph? nodeDef = some graph ∧ i = .graph graph.name := by
  constructor
  · intro h
    cases h with
    | exact hfirst => exact .inl ⟨_, implementationRecord?_eq_some_iff.mpr (.inl hfirst), rfl⟩
    | general hexact hfirst =>
      exact .inl ⟨_, implementationRecord?_eq_some_iff.mpr (.inr ⟨hexact, hfirst⟩), rfl⟩
    | graph hexact hgeneral hfirst =>
      exact .inr ⟨implementationRecord?_eq_none_iff.mpr ⟨hexact, hgeneral⟩, _,
        implementingGraph?_eq_some_iff.mpr hfirst, rfl⟩
  · rintro (⟨record, hrecord, rfl⟩ | ⟨hnone, graph, hgraph, rfl⟩)
    · rcases implementationRecord?_eq_some_iff.mp hrecord with hfirst | ⟨hexact, hfirst⟩
      · exact .exact hfirst
      · exact .general hexact hfirst
    · obtain ⟨hexact, hgeneral⟩ := implementationRecord?_eq_none_iff.mp hnone
      exact .graph hexact hgeneral (implementingGraph?_eq_some_iff.mp hgraph)

theorem resolve_eq_ok_iff {i : Implementation} (hdef : (d.nodeDef? nodeDef).isSome) :
    d.resolve nodeDef target = .ok i ↔ d.Chooses nodeDef target i := by
  have hdef : ¬ (d.nodeDef? nodeDef).isNone = true := by
    rw [← Option.not_isSome]
    simp [hdef]
  rw [resolve, if_neg hdef, chooses_iff]
  cases hrecord : d.implementationRecord? nodeDef target with
  | some record => simp [eq_comm]
  | none =>
    cases hgraph : d.implementingGraph? nodeDef with
    | some graph => simp [eq_comm]
    | none => simp

/-- What has an implementation resolves to one, and the converse. -/
theorem hasImplementation_iff (hdef : (d.nodeDef? nodeDef).isSome) :
    d.hasImplementation nodeDef (some target) = true ↔ ∃ i, d.resolve nodeDef target = .ok i := by
  simp only [resolve_eq_ok_iff hdef, chooses_iff]
  simp only [hasImplementation, Option.all_some, Bool.or_eq_true, any_implementations_iff,
    Option.isSome_iff_exists]
  cases hrecord : d.implementationRecord? nodeDef target with
  | some record => simp
  | none => simp

/-- For a node definition, the test for an implementation and the search for one agree: there is one
for a target if and only if the definition resolves, and what it resolves to is the first record
made for just the target, else the first made for none in particular, else the first node graph. -/
theorem resolve_first_implementation (hdef : (d.nodeDef? nodeDef).isSome) (target : Target) :
    (d.hasImplementation nodeDef (some target) = true ↔ ∃ i, d.resolve nodeDef target = .ok i) ∧
      ∀ i, d.resolve nodeDef target = .ok i ↔ d.Chooses nodeDef target i :=
  ⟨hasImplementation_iff hdef, fun _ => resolve_eq_ok_iff hdef⟩

/-- A document with a node definition that is implemented in several ways: after a record for
another target there are a node graph, a record with an empty target, and two for one target. -/
def variants : Document where
  root :=
    { category := "materialx", name := ""
      children :=
        [ { category := "nodedef", name := "ND_a" },
          record "IM_fx" [("target", "ogsfx")],
          { category := "nodegraph", name := "NG_a", attributes := [("nodedef", "ND_a")] },
          record "IM_any" [("target", "")],
          record "IM_first" [("target", "glsl"), ("function", "f")],
          record "IM_second" [("target", "glsl"), ("function", "g")] ] }
where
  /-- A record for the definition in one language. -/
  record (name : String) (attributes : List (String × String)) : Element :=
    { category := "implementation", name
      attributes := ("nodedef", "ND_a") :: ("language", "genglsl") :: attributes }

/-- The first of two exact records is chosen although others stand before it, a record without
target where there is none for the target, and the graph in another language. -/
theorem resolve_variants :
    (variants.nodeDef? "ND_a").isSome ∧
      variants.resolve "ND_a" ⟨"genglsl", "glsl"⟩ = .ok (.source "IM_first" none (some "f") none) ∧
      variants.resolve "ND_a" ⟨"genglsl", "essl"⟩ = .ok (.source "IM_any" none none none) ∧
      variants.resolve "ND_a" ⟨"genosl", "glsl"⟩ = .ok (.graph "NG_a") := by
  have hdef : (variants.nodeDef? "ND_a").isSome := by decide
  have hspec := resolve_first_implementation hdef
  have hexact : IsFirstOf (IsExact ⟨"genglsl", "glsl"⟩ "ND_a") variants.elements
      (variants.record "IM_first" [("target", "glsl"), ("function", "f")]) :=
    ⟨variants.elements.take 4, variants.elements.drop 5, rfl, by decide, by decide⟩
  have hgeneral : IsFirstOf (IsGeneral ⟨"genglsl", "essl"⟩ "ND_a") variants.elements
      (variants.record "IM_any" [("target", "")]) :=
    ⟨variants.elements.take 3, variants.elements.drop 4, rfl, by decide, by decide⟩
  have hgraph : IsFirstOf (IsGraph "ND_a") variants.elements
      { category := "nodegraph", name := "NG_a", attributes := [("nodedef", "ND_a")] } :=
    ⟨variants.elements.take 2, variants.elements.drop 3, rfl, by decide, by decide⟩
  exact ⟨hdef, ((hspec _).2 _).mpr (.exact hexact),
    ((hspec _).2 _).mpr (.general (by decide) hgeneral),
    ((hspec _).2 _).mpr (.graph (by decide) (by decide) hgraph)⟩

end Document

end MaterialViewer
