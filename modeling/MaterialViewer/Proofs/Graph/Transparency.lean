import MaterialViewer.Proofs.Graph.Sample
import MaterialViewer.Proofs.Graph.Steps
import Mathlib.Data.List.Forall2

/-!
# Proofs: transparency and the built root

Whether a surface is transparent is decided before its graph is built, from the definition and the
authored inputs alone. The graph of a shader reference says the same in another way, by the inputs
of its root. The two read an input alike if it is written plainly. They differ in what an input
falls back to: `Overlooked` inputs show through in the graph only, `Imagined` ones in the document
only, and by these two the agreement is told exactly.
-/

namespace MaterialViewer

namespace Transparency

/-- A rule of transparency: the input with a name makes a surface transparent if it is connected or
some component of its value satisfies a test. -/
structure Rule where
  /-- The name of the input. -/
  name : String
  /-- The components that make the surface transparent. -/
  test : Single → Bool

/-- The rules of transparency. -/
def rules : List Rule :=
  opacityInputs.map (⟨·, fun x => !x.sameNumber .one⟩) ++
    transmissionInputs.map (⟨·, fun x => Single.zero.lt x⟩)

theorem surfaceIsTransparent_eq (nodeDef : Element) (authored? : String → Option Element) :
    surfaceIsTransparent nodeDef authored? =
      rules.any fun rule => inputIsTransparent nodeDef authored? rule.test rule.name := by
  simp [surfaceIsTransparent, rules, List.any_append, List.any_map, Function.comp_def]

end Transparency

/-- Whether an input takes its value from a node. -/
def ShaderInput.isConnected (input : ShaderInput) : Bool :=
  match input.binding with
  | .connection _ => true
  | _ => false

/-- Whether an input is connected or has a value with a component that satisfies `test`. -/
def ShaderInput.showsThrough (test : Single → Bool) (input : ShaderInput) : Bool :=
  input.isConnected || input.value?.any (·.anyFloat test)

/-- Whether a rule of transparency holds of some input of a node. -/
def ShaderNode.showsThrough (n : ShaderNode) : Bool :=
  Transparency.rules.any fun rule =>
    n.inputs.any fun input => input.name = rule.name && input.showsThrough rule.test

namespace Graph

open Transparency

variable {r : Request} {ref nodeDef defInput : Element} {inputs : List ShaderInput} {rule : Rule}

/-! ## The inputs of the root -/

/-- Whether a link leads to a node, in a scope that stands in no node's place. -/
def Link.isNode : Link → Bool
  | node _ | output _ _ => true
  | interface _ | nothing => false

theorem follow_top (link : Link) :
    (∃ scope name, ({} : Scope).follow link = .node scope name ∧ link.isNode) ∨
      ({} : Scope).follow link = .nothing ∧ ¬ link.isNode := by
  cases link with
  | node name => exact .inl ⟨_, _, rfl, rfl⟩
  | output graph name => exact .inl ⟨_, _, rfl, rfl⟩
  | interface name => exact .inr ⟨rfl, nofun⟩
  | nothing => exact .inr ⟨rfl, nofun⟩

/-- How a shader reference is authored. -/
abbrev ofRef (ref : Element) : Instance Nat := .shaderRef ref

/-- What the build makes of an input of the definition of a shader reference. -/
inductive RootInput (d : Document) (ref defInput : Element) : ShaderInput → Prop
  | linked {index : Nat} (hlink : ((ofRef ref).link d "" defInput).isNode) :
      RootInput d ref defInput (connectedInput defInput index)
  | geometry {property : String} {index : Nat}
      (hlink : ¬ ((ofRef ref).link d "" defInput).isNode)
      (hproperty : (ofRef ref).property? defInput = some property) :
      RootInput d ref defInput (connectedInput defInput index)
  | bound {binding : InputBinding} (hlink : ¬ ((ofRef ref).link d "" defInput).isNode)
      (hbinding : ∀ index, binding ≠ .connection index) :
      RootInput d ref defInput ((ofRef ref).boundInput defInput binding)

theorem ClassifyStep.ne_connection {p : Parameter} {isAuthored : Bool} {b b' : Build}
    {binding : InputBinding} (h : ClassifyStep r p isAuthored b binding b') (index : Nat) :
    binding ≠ .connection index := by
  cases h with
  | fixed hfixed =>
    rintro rfl
    exact fixedBinding?_ne_connection hfixed
  | registered => exact nofun

theorem InputStep.rootInput {walk : Walk} {nodeName nodePath : String} {b b' : Build}
    {input : ShaderInput}
    (h : InputStep r walk {} (ofRef ref) nodeName nodePath defInput b input b') :
    RootInput r.document ref defInput input := by
  have hfollow := follow_top ((ofRef ref).link r.document "" defInput)
  cases h with
  | added hadded => cases hadded
  | node hadded href =>
    obtain ⟨_, _, -, hlink⟩ | ⟨hnothing, -⟩ := hfollow
    · exact .linked hlink
    · exact absurd (hnothing.symm.trans href) nofun
  | outer hadded href =>
    obtain ⟨_, _, hnode, -⟩ | ⟨hnothing, -⟩ := hfollow
    · exact absurd (hnode.symm.trans href) nofun
    · exact absurd (hnothing.symm.trans href) nofun
  | own hadded href hstep =>
    obtain ⟨_, _, hnode, -⟩ | ⟨-, hlink⟩ := hfollow
    · exact absurd (hnode.symm.trans href) nofun
    · cases hstep with
      | geometry hproperty => exact .geometry hlink hproperty
      | bound hproperty hstep => exact .bound hlink hstep.ne_connection

theorem InputsStep.rootInputs {walk : Walk} {nodeName nodePath : String} {b b' : Build}
    {defInputs : List Element}
    (h : InputsStep r walk {} (ofRef ref) nodeName nodePath defInputs b inputs b') :
    List.Forall₂ (RootInput r.document ref) defInputs inputs := by
  induction h with
  | nil => exact .nil
  | cons hinput hinputs ih => exact .cons hinput.rootInput ih

/-- The root of the graph of a shader reference whose definition is implemented by code. -/
theorem exists_rootNode {depth : Nat} {path : String} {g : ShaderGraph} {code : NodeCode}
    (hbuild : graphWithin r depth path = .ok g) (hpath : r.document.element? path = some ref)
    (hcategory : ref.category = "shaderref")
    (hdef : r.document.nodeDefOfShaderRef? ref = some nodeDef)
    (hcode : implementationOf r nodeDef.name = .ok (.inl code)) :
    ∃ root, g.rootNode? = some root ∧
      List.Forall₂ (RootInput r.document ref) nodeDef.valueElements root.inputs := by
  obtain ⟨⟨index, b⟩, hwithin, rfl⟩ := map_ok.mp hbuild
  cases buildRoot_ok hwithin with
  | output helement hcategory' => simp_all
  | node helement hcategory' => simp_all
  | shaderRef helement _ hdef' hplan =>
    obtain rfl : ref = _ := Option.some.inj (hpath.symm.trans helement)
    obtain rfl : nodeDef = _ := Option.some.inj (hdef.symm.trans hdef')
    cases hplan with
    | mk hname hinputs hadd =>
      cases hadd with
      | inner hexpansion =>
        have himpl := (expansion?_eq_some hexpansion).1
        exact absurd (hcode.symm.trans himpl) nofun
      | single hexpansion hroot hpush =>
        obtain ⟨rfl, rfl⟩ := pushNode_ok.mp hpush
        exact ⟨_, List.getElem?_concat_length, hinputs.rootInputs⟩

/-! ## The two readings of an input -/

/-- The value that is read off the text of an input, or of its definition if it has none. -/
def writtenValue? (ref defInput : Element) : Option Value :=
  (((boundInput? ref defInput.name).bind (·.valueText?)).or defInput.valueText?).bind
    (Value.parse? (.ofName defInput.typeName))

/-- Whether what an input falls back to shows through if it refers to nothing: a geometric property
that it is connected to, or the authored value, the one of the definition or the default of the
type, whichever is the first. -/
def FallbackShows (ref : Element) (test : Single → Bool) (defInput : Element)
    (input : ShaderInput) : Prop :=
  (((ofRef ref).property? defInput).isSome ∧ input.isConnected) ∨
    ((ofRef ref).valueOrDefault? defInput).any (·.anyFloat test) ∧ ¬ input.isConnected

/-- A rule that holds in the graph and is overlooked in the document: the authored input has no
attribute of a connection, its text gives no value or one that does not satisfy the test, and yet
what some input of that name falls back to does. -/
def Overlooked (ref nodeDef : Element) (inputs : List ShaderInput) (rule : Rule) : Prop :=
  ∃ defInput, nodeDef.valueElement? rule.name = some defInput ∧
    ¬ (boundInput? ref rule.name).any Transparency.isConnected ∧
    ¬ (writtenValue? ref defInput).any (·.anyFloat rule.test) ∧
    ∃ p ∈ nodeDef.valueElements.zip inputs, p.1.name = rule.name ∧
      FallbackShows ref rule.test p.1 p.2

/-- A rule that is seen in the document and does not hold in the graph: the authored input has an
attribute of a connection that leads to no node, and what the inputs of that name fall back to does
not satisfy the test. -/
def Imagined (d : Document) (ref nodeDef : Element) (inputs : List ShaderInput) (rule : Rule) :
    Prop :=
  (nodeDef.valueElement? rule.name).isSome ∧
    (∃ authored, boundInput? ref rule.name = some authored ∧
      Transparency.isConnected authored ∧ ¬ (linkOf d "" authored).isNode) ∧
    ∀ p ∈ nodeDef.valueElements.zip inputs, p.1.name = rule.name →
      ¬ FallbackShows ref rule.test p.1 p.2

/-- Whether a rule holds of some of the inputs. -/
def Holds (inputs : List ShaderInput) (rule : Rule) : Prop :=
  ∃ input ∈ inputs, input.name = rule.name ∧ input.showsThrough rule.test

/-- Whether a rule is seen in the document. -/
def Seen (ref nodeDef : Element) (rule : Rule) : Prop :=
  inputIsTransparent nodeDef (boundInput? ref) rule.test rule.name

/-- A value that is written is the first that is found. -/
theorem valueOrDefault?_of_written {v : Value} (h : writtenValue? ref defInput = some v) :
    (ofRef ref).valueOrDefault? defInput = some v := by
  have hvalue : (ofRef ref).valueOf? defInput =
      (boundInput? ref defInput.name).bind fun e => valueOf? e (.ofName defInput.typeName) := rfl
  unfold writtenValue? at h
  cases htext : (boundInput? ref defInput.name).bind (·.valueText?) with
  | none =>
    have hnone : (ofRef ref).valueOf? defInput = none := by
      rw [hvalue]
      cases hauthored : boundInput? ref defInput.name with
      | none => rfl
      | some authored =>
        have : authored.valueText? = none := by simpa [hauthored] using htext
        simp [valueOf?, this]
    rw [htext, Option.none_or] at h
    simp [Instance.valueOrDefault?, hnone, valueOf?, h]
  | some text =>
    obtain ⟨authored, hauthored, htext'⟩ := Option.bind_eq_some_iff.mp htext
    rw [htext, Option.some_or] at h
    simp [Instance.valueOrDefault?, hvalue, hauthored, valueOf?, htext', h]

theorem isConnected_of_isNode {d : Document} {graph : String} {authored : Element}
    (h : (linkOf d graph authored).isNode) : Transparency.isConnected authored := by
  have hfilled : ∀ {key name : String}, authored.filled? key = some name →
      authored.hasAttribute key := by
    intro key name hname
    exact Option.isSome_iff_exists.mpr ⟨name, (Option.filter_eq_some_iff.mp hname).1⟩
  cases hlink : linkOf d graph authored with
  | node name => simp [Transparency.isConnected, hfilled (linkOf_node hlink).1]
  | output graph' name => simp [Transparency.isConnected, hfilled (linkOf_output hlink).1]
  | interface name => rw [hlink] at h; cases h
  | nothing => rw [hlink] at h; cases h

theorem seen_iff : Seen ref nodeDef rule ↔
    ∃ defInput, nodeDef.valueElement? rule.name = some defInput ∧
      ((boundInput? ref rule.name).any Transparency.isConnected ∨
        (writtenValue? ref defInput).any (·.anyFloat rule.test)) := by
  unfold Seen inputIsTransparent
  cases hdef : nodeDef.valueElement? rule.name with
  | none => simp
  | some defInput =>
    have hname : defInput.name = rule.name := by simpa using List.find?_some hdef
    simp [writtenValue?, hname]

section Root

variable {d : Document}

theorem RootInput.name_eq {input : ShaderInput} (h : RootInput d ref defInput input) :
    input.name = defInput.name := by
  cases h <;> rfl

theorem RootInput.isConnected_of_isNode {input : ShaderInput} (h : RootInput d ref defInput input)
    (hlink : ((ofRef ref).link d "" defInput).isNode) : input.isConnected := by
  cases h with
  | linked => rfl
  | geometry hlink' => exact absurd hlink hlink'
  | bound hlink' => exact absurd hlink hlink'

theorem RootInput.showsThrough_iff {input : ShaderInput} {test : Single → Bool}
    (h : RootInput d ref defInput input) (hlink : ¬ ((ofRef ref).link d "" defInput).isNode) :
    input.showsThrough test ↔ FallbackShows ref test defInput input := by
  cases h with
  | linked hlink' => exact absurd hlink' hlink
  | geometry _ hproperty =>
    simp [ShaderInput.showsThrough, ShaderInput.isConnected, FallbackShows, connectedInput,
      connected, hproperty]
  | @bound binding _ hbinding =>
    have hunconnected : ((ofRef ref).boundInput defInput binding).isConnected = false := by
      cases binding with
      | connection index => exact absurd rfl (hbinding index)
      | _ => rfl
    have hvalue : ((ofRef ref).boundInput defInput binding).value? =
        (ofRef ref).valueOrDefault? defInput := rfl
    simp only [ShaderInput.showsThrough, FallbackShows, hunconnected, hvalue]
    simp

theorem RootInput.fallbackShows {input : ShaderInput} {test : Single → Bool}
    (h : RootInput d ref defInput input) (hlink : ¬ ((ofRef ref).link d "" defInput).isNode)
    (hwritten : (writtenValue? ref defInput).any (·.anyFloat test)) :
    FallbackShows ref test defInput input := by
  rw [← h.showsThrough_iff hlink]
  cases h with
  | linked hlink' => exact absurd hlink' hlink
  | geometry => rfl
  | bound =>
    cases hv : writtenValue? ref defInput with
    | none => simp [hv] at hwritten
    | some v =>
      rw [hv, Option.any_some] at hwritten
      simp [ShaderInput.showsThrough, Instance.boundInput, valueOrDefault?_of_written hv, hwritten]

theorem names_eq (h : List.Forall₂ (RootInput d ref) nodeDef.valueElements inputs) :
    inputs.map (·.name) = nodeDef.valueElements.map (·.name) := by
  generalize nodeDef.valueElements = defInputs at h
  induction h with
  | nil => rfl
  | cons hinput _ ih => rw [List.map_cons, List.map_cons, hinput.name_eq, ih]

/-- Inputs of one name refer to the same. -/
theorem link_eq (hname : defInput.name = rule.name) :
    (ofRef ref).link d "" defInput = (boundInput? ref rule.name).elim .nothing (linkOf d "") := by
  rw [← hname]
  rfl

variable (hinputs : List.Forall₂ (RootInput d ref) nodeDef.valueElements inputs)

include hinputs

theorem holds_iff : Holds inputs rule ↔ ∃ p ∈ nodeDef.valueElements.zip inputs,
    p.1.name = rule.name ∧ p.2.showsThrough rule.test := by
  unfold Holds
  generalize nodeDef.valueElements = defInputs at hinputs ⊢
  induction hinputs with
  | nil => simp
  | cons hinput _ ih => simp [ih, hinput.name_eq]

theorem exists_valueElement? (h : Holds inputs rule) :
    ∃ defInput, nodeDef.valueElement? rule.name = some defInput := by
  obtain ⟨p, hmem, hname, -⟩ := (holds_iff hinputs).mp h
  refine Option.isSome_iff_exists.mp (List.find?_isSome.mpr ⟨p.1, (List.of_mem_zip hmem).1, ?_⟩)
  simpa using hname

theorem exists_zip (hdef : nodeDef.valueElement? rule.name = some defInput) :
    ∃ input, (defInput, input) ∈ nodeDef.valueElements.zip inputs ∧ defInput.name = rule.name := by
  have hmem : defInput ∈ nodeDef.valueElements := List.mem_of_find?_eq_some hdef
  have hname : defInput.name = rule.name := by simpa using List.find?_some hdef
  obtain ⟨i, hi, rfl⟩ := List.mem_iff_getElem.mp hmem
  have hlength := hinputs.length_eq
  exact ⟨inputs[i], List.mem_iff_getElem.mpr ⟨i, by simp; omega, by simp⟩, hname⟩

/-- If the authored input leads to a node, then the rule is seen and holds. -/
theorem seen_and_holds_of_isNode (hsome : (nodeDef.valueElement? rule.name).isSome)
    (hlink : ((boundInput? ref rule.name).elim .nothing (linkOf d "")).isNode) :
    Seen ref nodeDef rule ∧ Holds inputs rule := by
  obtain ⟨defInput, hdef⟩ := Option.isSome_iff_exists.mp hsome
  obtain ⟨input, hmem, hname⟩ := exists_zip hinputs hdef
  constructor
  · refine seen_iff.mpr ⟨defInput, hdef, .inl ?_⟩
    cases hauthored : boundInput? ref rule.name with
    | none => rw [hauthored] at hlink; cases hlink
    | some authored =>
      rw [hauthored] at hlink
      exact isConnected_of_isNode hlink
  · refine (holds_iff hinputs).mpr ⟨_, hmem, hname, ?_⟩
    have hinput := List.forall₂_zip hinputs hmem
    simp [ShaderInput.showsThrough, hinput.isConnected_of_isNode (link_eq hname ▸ hlink)]

theorem holds_iff_of_not_isNode
    (hlink : ¬ ((boundInput? ref rule.name).elim .nothing (linkOf d "")).isNode) :
    Holds inputs rule ↔ ∃ p ∈ nodeDef.valueElements.zip inputs, p.1.name = rule.name ∧
      FallbackShows ref rule.test p.1 p.2 := by
  rw [holds_iff hinputs]
  refine exists_congr fun p => and_congr_right fun hmem => and_congr_right fun hname => ?_
  exact (List.forall₂_zip hinputs hmem).showsThrough_iff (link_eq hname ▸ hlink)

theorem overlooked_iff :
    Overlooked ref nodeDef inputs rule ↔ Holds inputs rule ∧ ¬ Seen ref nodeDef rule := by
  constructor
  · rintro ⟨defInput, hdef, hauthored, hwritten, hfallback⟩
    have hlink : ¬ ((boundInput? ref rule.name).elim .nothing (linkOf d "")).isNode := by
      cases hauthored' : boundInput? ref rule.name with
      | none => exact nofun
      | some authored =>
        rw [hauthored'] at hauthored
        exact fun h => hauthored (isConnected_of_isNode h)
    refine ⟨(holds_iff_of_not_isNode hinputs hlink).mpr hfallback, fun hseen => ?_⟩
    obtain ⟨defInput', hdef', hshows⟩ := seen_iff.mp hseen
    obtain rfl := Option.some.inj (hdef.symm.trans hdef')
    exact hshows.elim hauthored hwritten
  · rintro ⟨hholds, hseen⟩
    obtain ⟨defInput, hdef⟩ := exists_valueElement? hinputs hholds
    have hlink : ¬ ((boundInput? ref rule.name).elim .nothing (linkOf d "")).isNode := fun h =>
      hseen (seen_and_holds_of_isNode hinputs (Option.isSome_iff_exists.mpr ⟨_, hdef⟩) h).1
    refine ⟨defInput, hdef, fun h => hseen (seen_iff.mpr ⟨_, hdef, .inl h⟩),
      fun h => hseen (seen_iff.mpr ⟨_, hdef, .inr h⟩), ?_⟩
    exact (holds_iff_of_not_isNode hinputs hlink).mp hholds

theorem imagined_iff :
    Imagined d ref nodeDef inputs rule ↔ Seen ref nodeDef rule ∧ ¬ Holds inputs rule := by
  constructor
  · rintro ⟨hsome, ⟨authored, hauthored, hconnected, hlink⟩, hfallback⟩
    obtain ⟨defInput, hdef⟩ := Option.isSome_iff_exists.mp hsome
    refine ⟨seen_iff.mpr ⟨defInput, hdef, .inl (by simp [hauthored, hconnected])⟩, fun hholds => ?_⟩
    rw [holds_iff_of_not_isNode hinputs (by rw [hauthored]; exact hlink)] at hholds
    obtain ⟨p, hmem, hname, hshows⟩ := hholds
    exact hfallback p hmem hname hshows
  · rintro ⟨hseen, hholds⟩
    obtain ⟨defInput, hdef, hshows⟩ := seen_iff.mp hseen
    have hsome : (nodeDef.valueElement? rule.name).isSome := Option.isSome_iff_exists.mpr ⟨_, hdef⟩
    have hlink : ¬ ((boundInput? ref rule.name).elim .nothing (linkOf d "")).isNode := fun h =>
      hholds (seen_and_holds_of_isNode hinputs hsome h).2
    rw [holds_iff_of_not_isNode hinputs hlink] at hholds
    refine ⟨hsome, ?_, fun p hmem hname hfallback => hholds ⟨p, hmem, hname, hfallback⟩⟩
    obtain hconnected | hwritten := hshows
    · cases hauthored : boundInput? ref rule.name with
      | none => simp [hauthored] at hconnected
      | some authored =>
        rw [hauthored] at hconnected hlink
        exact ⟨authored, rfl, hconnected, hlink⟩
    · obtain ⟨input, hmem, hname⟩ := exists_zip hinputs hdef
      have hinput := List.forall₂_zip hinputs hmem
      exact absurd ⟨_, hmem, hname, hinput.fallbackShows (link_eq hname ▸ hlink) hwritten⟩ hholds

end Root

/-! ## Agreement -/

theorem isTransparent_iff_seen {d : Document} {path : String} (hpath : d.element? path = some ref)
    (hcategory : ref.category = "shaderref") (hdef : d.nodeDefOfShaderRef? ref = some nodeDef) :
    isTransparent d path ↔ ∃ rule ∈ rules, Seen ref nodeDef rule := by
  simp [isTransparent, hpath, hcategory, hdef, surfaceIsTransparent_eq, Seen]

theorem showsThrough_iff_holds {root : ShaderNode} :
    root.showsThrough ↔ ∃ rule ∈ rules, Holds root.inputs rule := by
  simp [ShaderNode.showsThrough, Holds]

theorem agree_iff {d : Document} {path : String} {root : ShaderNode}
    (hpath : d.element? path = some ref) (hcategory : ref.category = "shaderref")
    (hdef : d.nodeDefOfShaderRef? ref = some nodeDef)
    (hinputs : List.Forall₂ (RootInput d ref) nodeDef.valueElements root.inputs) :
    isTransparent d path = root.showsThrough ↔
      ((∃ rule ∈ rules, Overlooked ref nodeDef root.inputs rule) → isTransparent d path) ∧
      ((∃ rule ∈ rules, Imagined d ref nodeDef root.inputs rule) → root.showsThrough) := by
  rw [Bool.eq_iff_iff, isTransparent_iff_seen hpath hcategory hdef, showsThrough_iff_holds]
  constructor
  · intro hagree
    constructor
    · rintro ⟨rule, hmem, hoverlooked⟩
      exact hagree.mpr ⟨rule, hmem, ((overlooked_iff hinputs).mp hoverlooked).1⟩
    · rintro ⟨rule, hmem, himagined⟩
      exact hagree.mp ⟨rule, hmem, ((imagined_iff hinputs).mp himagined).1⟩
  · rintro ⟨hoverlooked, himagined⟩
    constructor
    · rintro ⟨rule, hmem, hseen⟩
      by_cases hholds : Holds root.inputs rule
      · exact ⟨rule, hmem, hholds⟩
      · exact himagined ⟨rule, hmem, (imagined_iff hinputs).mpr ⟨hseen, hholds⟩⟩
    · rintro ⟨rule, hmem, hholds⟩
      by_cases hseen : Seen ref nodeDef rule
      · exact ⟨rule, hmem, hseen⟩
      · exact hoverlooked ⟨rule, hmem, (overlooked_iff hinputs).mpr ⟨hholds, hseen⟩⟩

/-- An input of a definition that is plainly given: it is the first of its name, an authored
connection leads to a node, and without one there is a value to be read and no geometric property in
its place. -/
structure Plainly (d : Document) (ref nodeDef defInput : Element) : Prop where
  first : nodeDef.valueElement? defInput.name = some defInput
  connected : ∀ authored, boundInput? ref defInput.name = some authored →
    Transparency.isConnected authored → (linkOf d "" authored).isNode
  written : ¬ (boundInput? ref defInput.name).any Transparency.isConnected →
    (writtenValue? ref defInput).isSome ∧ (ofRef ref).property? defInput = none

/-- Document and root agree on transparency if the inputs that the rules name are plainly given. -/
theorem isTransparent_eq_showsThrough {depth : Nat} {path : String} {g : ShaderGraph}
    {code : NodeCode} (hbuild : graphWithin r depth path = .ok g)
    (hpath : r.document.element? path = some ref) (hcategory : ref.category = "shaderref")
    (hdef : r.document.nodeDefOfShaderRef? ref = some nodeDef)
    (hcode : implementationOf r nodeDef.name = .ok (.inl code))
    (hplain : ∀ rule ∈ rules, ∀ defInput ∈ nodeDef.valueElements, defInput.name = rule.name →
      Plainly r.document ref nodeDef defInput) :
    ∃ root, g.rootNode? = some root ∧ isTransparent r.document path = root.showsThrough := by
  obtain ⟨root, hroot, hinputs⟩ := exists_rootNode hbuild hpath hcategory hdef hcode
  refine ⟨root, hroot, (agree_iff hpath hcategory hdef hinputs).mpr ⟨?_, ?_⟩⟩
  · rintro ⟨rule, hrule, defInput, hfirst, hauthored, hwritten, p, hmem, hname, hfallback⟩
    have hp := hplain rule hrule p.1 (List.of_mem_zip hmem).1 hname
    rw [← hname] at hfirst hauthored
    obtain rfl := Option.some.inj (hp.first.symm.trans hfirst)
    obtain ⟨hsome, hproperty⟩ := hp.written hauthored
    obtain ⟨v, hv⟩ := Option.isSome_iff_exists.mp hsome
    obtain ⟨hsome', -⟩ | ⟨hvalue, -⟩ := hfallback
    · simp [hproperty] at hsome'
    · rw [valueOrDefault?_of_written hv] at hvalue
      exact absurd (hv ▸ hvalue) hwritten
  · rintro ⟨rule, hrule, hsome, ⟨authored, hauthored, hconnected, hlink⟩, -⟩
    obtain ⟨defInput, hdef'⟩ := Option.isSome_iff_exists.mp hsome
    have hname : defInput.name = rule.name := by simpa using List.find?_some hdef'
    have hp := hplain rule hrule defInput (List.mem_of_find?_eq_some hdef') hname
    exact absurd (hp.connected authored (hname ▸ hauthored) hconnected) hlink

/-- For every shader reference whose definition is implemented by code and whose graph is built, the
inputs of the root are those of the definition, and the document and the root agree on transparency
exactly if no rule makes a difference: where one is overlooked, the surface is found transparent by
another one, and where one is imagined, another one holds. -/
theorem isTransparent_eq_showsThrough_iff {depth : Nat} {path : String} {g : ShaderGraph}
    {code : NodeCode} (hbuild : graphWithin r depth path = .ok g)
    (hpath : r.document.element? path = some ref) (hcategory : ref.category = "shaderref")
    (hdef : r.document.nodeDefOfShaderRef? ref = some nodeDef)
    (hcode : implementationOf r nodeDef.name = .ok (.inl code)) :
    ∃ root, g.rootNode? = some root ∧
      root.inputs.map (·.name) = nodeDef.valueElements.map (·.name) ∧
      (isTransparent r.document path = root.showsThrough ↔
        ((∃ rule ∈ rules, Overlooked ref nodeDef root.inputs rule) →
          isTransparent r.document path) ∧
        ((∃ rule ∈ rules, Imagined r.document ref nodeDef root.inputs rule) →
          root.showsThrough)) := by
  obtain ⟨root, hroot, hinputs⟩ := exists_rootNode hbuild hpath hcategory hdef hcode
  exact ⟨root, hroot, names_eq hinputs, agree_iff hpath hcategory hdef hinputs⟩

/-- The definition of a surface with an opacity of one half. -/
def Sample.veilDefinition : Element :=
  definition "veil" "surfaceshader" [input "opacity" "float" [("value", "0.5")]]

/-- A shader reference to that surface, with one binding. -/
def Sample.cover (bound : Element) : Element :=
  { category := "shaderref", name := "cover", attributes := [("node", "veil")]
    children := [bound] }

/-- The request for a document with a material of that surface. -/
def Sample.veil (bound : Element) : Request := request [
  veilDefinition, implementation "veil" "surfaceshader(vec3(0.0), vec3(0.0))",
  { category := "material", name := "Veil", children := [cover bound] }]

/-- A binding of the opacity. -/
def Sample.opacity (attributes : List (String × String)) : Element :=
  { category := "bindinput", name := "opacity", attributes }

/-- The code of the veil. -/
def Sample.veilCode : NodeCode :=
  .source "IM_veil" none none (some "surfaceshader(vec3(0.0), vec3(0.0))")

/-- A binding whose text is no number. -/
def Sample.unreadable : Element := opacity [("value", "half")]

/-- A binding of the value one that is connected to nothing. -/
def Sample.unconnected : Element := opacity [("nodename", ""), ("value", "1")]

/-- A run whose root is known to show through or not. -/
theorem Sample.exists_root {path : String} {shows : Bool}
    (h : (build r path).toOption.map (fun g => g.rootNode?.map (·.showsThrough)) =
      some (some shows)) :
    ∃ g root, build r path = .ok g ∧ g.rootNode? = some root ∧ root.showsThrough = shows := by
  obtain ⟨g, hbuild, hshows⟩ := exists_ok_of_map h
  obtain ⟨root, hroot, hshows⟩ := Option.map_eq_some_iff.mp hshows
  exact ⟨g, root, hbuild, hroot, hshows⟩

/-- The opacity that is no number is overlooked, and no other rule holds in its place. -/
theorem isTransparent_eq_showsThrough_iff_unreadable : ∃ g root,
    build (Sample.veil Sample.unreadable) "Veil/cover" = .ok g ∧ g.rootNode? = some root ∧
      root.inputs.map (·.name) = ["opacity"] ∧
      ∃ rule ∈ rules,
        Overlooked (Sample.cover Sample.unreadable) Sample.veilDefinition root.inputs rule := by
  have heval : (build (Sample.veil Sample.unreadable) "Veil/cover").toOption.map
      (fun g => g.rootNode?.map (·.showsThrough)) = some (some true) := by decide +kernel
  obtain ⟨g, root, hbuild, hroot, hshows⟩ := Sample.exists_root heval
  have hpath : (Sample.veil Sample.unreadable).document.element? "Veil/cover" =
      some (Sample.cover Sample.unreadable) := rfl
  have hdef : (Sample.veil Sample.unreadable).document.nodeDefOfShaderRef?
      (Sample.cover Sample.unreadable) = some Sample.veilDefinition := rfl
  have hcode : implementationOf (Sample.veil Sample.unreadable) Sample.veilDefinition.name =
      .ok (.inl Sample.veilCode) := by decide +kernel
  obtain ⟨root', hroot', hnames, hagree⟩ :=
    isTransparent_eq_showsThrough_iff hbuild hpath rfl hdef hcode
  obtain rfl := Option.some.inj (hroot.symm.trans hroot')
  refine ⟨g, root, hbuild, hroot, hnames, ?_⟩
  have hunseen : isTransparent (Sample.veil Sample.unreadable).document "Veil/cover" = false := by
    decide +kernel
  by_contra hnone
  rw [hunseen, hshows] at hagree
  exact absurd (hagree.mpr ⟨fun h => absurd h hnone, fun _ => rfl⟩) nofun

/-- A binding whose text is no number hides the opacity of the definition from the document, and one
that is connected to nothing makes the surface transparent in the document only. -/
theorem not_isTransparent_eq_showsThrough :
    (implementationOf (Sample.veil Sample.unreadable) "ND_veil" = .ok (.inl Sample.veilCode) ∧
      ∃ g root, build (Sample.veil Sample.unreadable) "Veil/cover" = .ok g ∧
        g.rootNode? = some root ∧ root.showsThrough ∧
        ¬ isTransparent (Sample.veil Sample.unreadable).document "Veil/cover") ∧
    (implementationOf (Sample.veil Sample.unconnected) "ND_veil" = .ok (.inl Sample.veilCode) ∧
      ∃ g root, build (Sample.veil Sample.unconnected) "Veil/cover" = .ok g ∧
        g.rootNode? = some root ∧ ¬ root.showsThrough ∧
        isTransparent (Sample.veil Sample.unconnected).document "Veil/cover") := by
  have hunreadable : (build (Sample.veil Sample.unreadable) "Veil/cover").toOption.map
      (fun g => g.rootNode?.map (·.showsThrough)) = some (some true) := by decide +kernel
  have hunconnected : (build (Sample.veil Sample.unconnected) "Veil/cover").toOption.map
      (fun g => g.rootNode?.map (·.showsThrough)) = some (some false) := by decide +kernel
  obtain ⟨g, root, hbuild, hroot, hshows⟩ := Sample.exists_root hunreadable
  obtain ⟨g', root', hbuild', hroot', hshows'⟩ := Sample.exists_root hunconnected
  constructor
  · exact ⟨by decide +kernel, g, root, hbuild, hroot, hshows, by decide +kernel⟩
  · exact ⟨by decide +kernel, g', root', hbuild', hroot', by simp [hshows'], by decide +kernel⟩

end Graph

end MaterialViewer
