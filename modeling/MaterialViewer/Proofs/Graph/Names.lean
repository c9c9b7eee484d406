import MaterialViewer.Proofs.Graph.FreshName
import MaterialViewer.Proofs.Graph.Sample
import MaterialViewer.Proofs.Graph.Sound
import MaterialViewer.Proofs.Graph.Steps

/-!
# Proofs: names and types that code can declare

Every name that the builder takes is made fresh from some other one, so it is an identifier, and no
two nodes of a graph have one name. What is declared for a node has the name of the node and more
after an underscore. That is an identifier as well, unless it gets the beginning that the shading
language keeps to itself: this happens to the name `gl` and to no other one. Parameters are
registered only with types that shaders know.
-/

namespace MaterialViewer

namespace Glsl

/-- A name may be declared in code: it is made of ASCII letters, digits and underscores, there is a
first character and this is no digit, and it does not have the reserved beginning. -/
structure IsIdentifier (name : String) : Prop where
  chars : ∀ c ∈ name.toList, isIdentifierChar c = true
  head : (name.toList.head?.any fun c => !c.isDigit) = true
  unreserved : ¬ "gl_".toList <+: name.toList

instance (name : String) : Decidable (IsIdentifier name) :=
  decidable_of_iff (name.toList.all isIdentifierChar = true ∧
      (name.toList.head?.any fun c => !c.isDigit) = true ∧ ¬ "gl_".toList <+: name.toList)
    ⟨fun ⟨h₁, h₂, h₃⟩ => ⟨List.all_eq_true.mp h₁, h₂, h₃⟩,
      fun h => ⟨List.all_eq_true.mpr h.chars, h.head, h.unreserved⟩⟩

variable {name rest : String}

theorem reserved_eq : "gl_".toList = ['g', 'l', '_'] := rfl

theorem isIdentifier_identifier (name : String) : IsIdentifier (identifier name) := by
  have htext : (identifier name).toList = identifierChars name.toList := String.toList_ofList
  refine ⟨fun c hc => FreshName.isIdentifierChar_of_mem_identifier hc, ?_, ?_⟩
  · rw [htext, identifierChars]
    generalize (name.toList.map fun c => if c.isAlphanum then c else '_') = plain
    cases plain with
    | nil => decide
    | cons c plain =>
      cases hdigit : c.isDigit <;> grind
  · have hguard (led : List Char) : ¬ "gl_".toList <+:
        if "gl_".toList.isPrefixOf led then '_' :: led else led := by
      split
      · rw [reserved_eq, List.cons_prefix_cons]
        exact fun h => absurd h.1 (by decide)
      · rename_i hled
        exact fun h => hled (List.isPrefixOf_iff_prefix.mpr h)
    rw [htext]
    exact hguard _

/-- Digits at its end leave an identifier one. -/
theorem IsIdentifier.append_digits (h : IsIdentifier name)
    (hrest : ∀ c ∈ rest.toList, c.isDigit = true) : IsIdentifier (name ++ rest) := by
  obtain ⟨hchars, hhead, hown⟩ := h
  rw [reserved_eq] at hown
  refine ⟨fun c hc => ?_, ?_, ?_⟩
  · rw [String.toList_append] at hc
    rcases List.mem_append.mp hc with hc | hc
    · exact hchars c hc
    · rw [isIdentifierChar, Char.isAlphanum, hrest c hc, Bool.or_true, Bool.true_or]
  · rw [String.toList_append]
    cases hname : name.toList with
    | nil =>
      rw [hname] at hhead
      cases hhead
    | cons c cs => rwa [hname] at hhead
  · rw [String.toList_append, reserved_eq]
    -- the reserved beginning has no digits, so it would be that of the name alone
    have hletter : 'l' ∉ rest.toList := fun hmem => absurd (hrest _ hmem) (by decide)
    have hunder : '_' ∉ rest.toList := fun hmem => absurd (hrest _ hmem) (by decide)
    generalize name.toList = cs at hhead hown ⊢
    generalize rest.toList = ds at hletter hunder ⊢
    rcases cs with _ | ⟨a, _ | ⟨b, _ | ⟨c, cs⟩⟩⟩
    · cases hhead
    · intro h
      obtain ⟨-, h⟩ := List.cons_prefix_cons.mp h
      exact hletter (h.subset List.mem_cons_self)
    · intro h
      obtain ⟨-, h⟩ := List.cons_prefix_cons.mp h
      obtain ⟨-, h⟩ := List.cons_prefix_cons.mp h
      exact hunder (h.subset List.mem_cons_self)
    · simpa [List.cons_prefix_cons] using hown

/-- A name with an underscore and more after it is an identifier, unless it is `gl`. -/
theorem IsIdentifier.append_underscore (h : IsIdentifier name)
    (hrest : ∀ c ∈ rest.toList, isIdentifierChar c = true) :
    IsIdentifier (name ++ "_" ++ rest) ↔ name ≠ "gl" := by
  obtain ⟨hchars, hhead, hown⟩ := h
  have htext : (name ++ "_" ++ rest).toList = name.toList ++ '_' :: rest.toList := by
    simp [String.toList_append]
  constructor
  · rintro ⟨-, -, hown'⟩ rfl
    rw [htext] at hown'
    exact hown' (List.prefix_append _ _)
  · intro hne
    have hne' : name.toList ≠ ['g', 'l'] := fun heq => hne (String.toList_injective heq)
    rw [reserved_eq] at hown
    refine ⟨fun c hc => ?_, ?_, ?_⟩
    · rw [htext] at hc
      rcases List.mem_append.mp hc with hc | hc
      · exact hchars c hc
      · rcases List.mem_cons.mp hc with rfl | hc
        · rfl
        · exact hrest c hc
    · rw [htext]
      cases hname : name.toList with
      | nil =>
        rw [hname] at hhead
        cases hhead
      | cons c cs => rwa [hname] at hhead
    · rw [htext, reserved_eq]
      generalize name.toList = cs at hhead hown hne' ⊢
      rcases cs with _ | ⟨a, _ | ⟨b, _ | ⟨c, cs⟩⟩⟩
      · cases hhead
      · simp [List.cons_prefix_cons]
      · simpa [List.cons_prefix_cons, eq_comm] using hne'
      · simpa [List.cons_prefix_cons] using hown

end Glsl

theorem FreshName.isIdentifier_fresh (used : List String) (base : String) :
    Glsl.IsIdentifier (FreshName.fresh used base) := by
  obtain ⟨number, -, -, hfresh⟩ := fresh_eq_candidate used base
  rw [hfresh]
  unfold candidate
  split
  · exact Glsl.isIdentifier_identifier base
  · refine (Glsl.isIdentifier_identifier base).append_digits fun c hc => ?_
    rw [String.toList_ofList] at hc
    exact Nat.isDigit_of_mem_toDigits (by decide) (by decide) hc

namespace Graph

/-! ## What is kept by a build -/

/-- The names that are taken are identifiers, and shaders know the types of the parameters. -/
structure Declarable (b : Build) : Prop where
  identifier : ∀ name ∈ b.names, Glsl.IsIdentifier name
  type : ∀ p ∈ b.parameters, Glsl.isShaderType p.type = true

/-- The walk keeps a build declarable. -/
def WalkDeclares (walk : Walk) : Prop :=
  ∀ ⦃scope name isRoot b index b'⦄, walk scope name isRoot b = .ok (index, b') →
    Declarable b → Declarable b'

variable {r : Request} {path : String} {b b' : Build} {walk : Walk} {scope : Scope} {index : Nat}

theorem Declarable.freshName {base name : String} (h : Declarable b)
    (hname : freshName base b = .ok (name, b')) : Declarable b' := by
  obtain ⟨-, rfl⟩ := freshName_ok.mp hname
  refine ⟨fun taken htaken => ?_, h.type⟩
  rcases List.mem_append.mp htaken with htaken | htaken
  · exact h.identifier taken htaken
  · rw [List.mem_singleton.mp htaken]
    exact FreshName.isIdentifier_fresh b.names base

theorem Declarable.pushNode {node : ShaderNode} (h : Declarable b)
    (hpush : pushNode node b = .ok (index, b')) : Declarable b' := by
  obtain ⟨-, rfl⟩ := pushNode_ok.mp hpush
  exact ⟨h.identifier, h.type⟩

theorem Declarable.recordBuilt {key : String} (h : Declarable b)
    (hrecord : recordBuilt key index b = .ok ((), b')) : Declarable b' := by
  obtain rfl := recordBuilt_ok.mp hrecord
  exact ⟨h.identifier, h.type⟩

theorem Declarable.beginNode {key : String} (h : Declarable b)
    (hbegin : beginNode key b = .ok ((), b')) : Declarable b' := by
  obtain rfl := beginNode_ok.mp hbegin
  exact ⟨h.identifier, h.type⟩

theorem Declarable.endNode {key : String} (h : Declarable b)
    (hend : endNode key b = .ok ((), b')) : Declarable b' := by
  obtain rfl := endNode_ok.mp hend
  exact ⟨h.identifier, h.type⟩

/-- A parameter is registered only if its type is one of shaders. -/
theorem Declarable.classify {p : Parameter} {isAuthored : Bool} {binding : InputBinding}
    (h : Declarable b) (hstep : ClassifyStep r p isAuthored b binding b') : Declarable b' := by
  cases hstep with
  | fixed _ => exact h
  | registered hfixed =>
    have htype : Glsl.isShaderType p.type = true := by
      by_contra htype
      rw [fixedBinding?, if_pos (by simp [htype])] at hfixed
      cases hfixed
    refine ⟨h.identifier, fun q hq => ?_⟩
    rcases List.mem_append.mp hq with hq | hq
    · exact h.type q hq
    · exact List.mem_singleton.mp hq ▸ htype

theorem Declarable.geometry {property : String} {found? : Option Nat} (h : Declarable b)
    (hstep : GeometryStep r property b found? b') : Declarable b' := by
  cases hstep with
  | unknown _ => exact h
  | known _ _ => exact h
  | new _ _ hname hpush hrecord => exact ((h.freshName hname).pushNode hpush).recordBuilt hrecord

section Walk

variable (hwalk : WalkDeclares walk)

include hwalk

theorem Declarable.inputs {inst : Instance Nat} {nodeName nodePath : String}
    {defInputs : List Element} {inputs : List ShaderInput} (h : Declarable b)
    (hstep : InputsStep r walk scope inst nodeName nodePath defInputs b inputs b') :
    Declarable b' := by
  induction hstep with
  | nil => exact h
  | cons hinput _ ih =>
    refine ih ?_
    cases hinput with
    | added _ => exact h
    | node _ _ hrun => exact hwalk hrun h
    | outer _ _ => exact h
    | own _ _ hown =>
      cases hown with
      | geometry _ hgeometry => exact h.geometry hgeometry
      | bound _ hclassify => exact h.classify hclassify

theorem Declarable.plan {p : Plan} (h : Declarable b) (hstep : PlanStep r walk p b index b') :
    Declarable b' := by
  obtain ⟨hname, hinputs, hadd⟩ := hstep
  have hbound := (h.freshName hname).inputs hwalk hinputs
  cases hadd with
  | inner _ hrun => exact hwalk hrun hbound
  | single _ _ hpush => exact hbound.pushNode hpush

theorem Declarable.element {e : Element} {key : String} {isRoot : Bool} (h : Declarable b)
    (hstep : ElementStep r walk scope e key path isRoot b index b') : Declarable b' := by
  cases hstep with
  | defined _ hplan hconversion =>
    have hbuilt := h.plan hwalk hplan
    cases hconversion with
    | missing _ => exact hbuilt
    | unneeded _ _ => exact hbuilt
    | needed _ _ hplan' => exact hbuilt.plan hwalk hplan'
  | undefined _ _ hname hpush => exact (h.freshName hname).pushNode hpush

theorem buildNodeWith_declares : WalkDeclares (buildNodeWith r walk) := by
  intro scope name isRoot b index b' hrun h
  cases buildNodeWith_ok hrun with
  | known _ => exact h
  | new _ _ hbegin _ hstep hend hrecord =>
    have hbuilt := (h.beginNode hbegin).element hwalk hstep
    exact (hbuilt.endNode hend).recordBuilt hrecord

end Walk

theorem buildNode_declares (r : Request) (depth : Nat) : WalkDeclares (buildNode r depth) := by
  induction depth with
  | zero => exact fun _ _ _ _ _ _ hrun => absurd hrun throw_ok
  | succ depth ih => exact buildNodeWith_declares ih

/-- Whatever is built for an element, its names are identifiers and its parameters have types of
shaders. -/
theorem buildWithin_declarable {depth root : Nat} (h : buildWithin r depth path = .ok (root, b)) :
    Declarable b := by
  have hwalk := buildNode_declares r depth
  have hempty : Declarable {} := ⟨nofun, nofun⟩
  cases buildRoot_ok h with
  | shaderRef _ _ _ hplan => exact hempty.plan hwalk hplan
  | output _ _ _ _ hrun => exact hwalk hrun hempty
  | node _ _ _ hrun => exact hwalk hrun hempty

/-! ## The names of the nodes -/

/-- The nodes of a graph have different names, and these are identifiers, however deep the walk for
it goes. The search for a fresh name needs no bound: it ends for every name and whatever names are
used, and its counter exceeds their number by one at most. -/
theorem graphWithin_freshNames :
    (∀ (r : Request) (depth : Nat) (path : String) (g : ShaderGraph),
      graphWithin r depth path = .ok g →
        (g.nodes.map (·.name)).Nodup ∧ ∀ node ∈ g.nodes, Glsl.IsIdentifier node.name) ∧
    ∀ (used : List String) (base : String), ∃ counter ≤ used.toFinset.card + 1, ∀ s,
      FreshName.Search.Ends used.toFinset (Glsl.identifier base) (.start (Glsl.identifier base)) s ↔
        s = ⟨FreshName.fresh used base, counter⟩ := by
  refine ⟨fun r depth path g h => ?_, FreshName.ends_iff⟩
  obtain ⟨⟨root, b⟩, hrun, rfl⟩ := map_ok.mp h
  obtain ⟨hsound, -⟩ := buildWithin_sound hrun
  refine ⟨hsound.nodup, fun node hnode => ?_⟩
  exact (buildWithin_declarable hrun).identifier node.name (hsound.node_named node hnode)

/-- Nodes whose names become the same identifier, one that is authored with the number of another
one, one that stands in the place of a node, and one with the reserved beginning. -/
def Sample.collisions : Request :=
  request
    [definition "mix" "float" [input "a" "float", input "b" "float", input "c" "float",
        input "d" "float", input "e" "float"],
      implementation "mix" "\x7b\x7ba\x7d\x7d",
      definition "tone" "float" [],
      { category := "nodegraph", name := "NG", attributes := [("nodedef", "ND_tone")]
        children :=
          [node "mix" "b" "float" [],
            { category := "output", name := "out"
              attributes := [("type", "float"), ("nodename", "b")] }] },
      node "mix" "top" "float"
        [link "a" "a b", link "b" "a.b", link "c" "a_b1", link "d" "a", link "e" "gl_b"],
      node "mix" "a b" "float" [], node "mix" "a.b" "float" [], node "mix" "a_b1" "float" [],
      node "tone" "a" "float" [], node "mix" "gl_b" "float" []]

theorem graphWithin_freshNames_collisions : ∃ g, build Sample.collisions "top" = .ok g ∧
    g.nodes.map (·.name) = ["a_b", "a_b1", "a_b11", "a_b2", "_gl_b", "top"] ∧
    (g.nodes.map (·.name)).Nodup ∧ ∀ node ∈ g.nodes, Glsl.IsIdentifier node.name := by
  have heval : (build Sample.collisions "top").toOption.map (fun g => g.nodes.map (·.name)) =
      some ["a_b", "a_b1", "a_b11", "a_b2", "_gl_b", "top"] := by decide +kernel
  obtain ⟨g, hbuild, hnames⟩ := Sample.exists_ok_of_map heval
  exact ⟨g, hbuild, hnames, graphWithin_freshNames.1 _ _ _ g hbuild⟩

end Graph

end MaterialViewer
