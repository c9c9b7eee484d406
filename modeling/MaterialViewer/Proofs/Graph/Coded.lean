import MaterialViewer.Proofs.Graph.Steps

/-!
# Proofs: the code of nodes

The builder adds nodes of three kinds: those that read a geometric property, those for a node
definition, and those for elements that have no definition. Code that does not read geometry is that
of an implementation of the document.
-/

namespace MaterialViewer

/-- Where the code of nodes comes from. -/
inductive NodeCode.ComesFrom (d : Document) : NodeCode → Prop
  | geometry (reader : GeometryReader) : ComesFrom d (.geometry reader)
  | source {record : Element} (hrecord : record ∈ d.implementations) :
      ComesFrom d (.source record.name (record.filled? "file") (record.filled? "function")
        (record.filled? "sourcecode"))

section Sources

variable {d : Document} {nodeDef name : String} {target : Target}
  {file? function? code? : Option String}

/-- Code of the document has its parts from an implementation. -/
theorem NodeCode.ComesFrom.exists_record
    (h : ComesFrom d (.source name file? function? code?)) :
    ∃ record ∈ d.implementations, record.filled? "file" = file? ∧
      record.filled? "function" = function? ∧ record.filled? "sourcecode" = code? := by
  cases h with
  | source hrecord => exact ⟨_, hrecord, rfl, rfl, rfl⟩

theorem Document.implementationRecord?_mem {record : Element}
    (h : d.implementationRecord? nodeDef target = some record) : record ∈ d.implementations := by
  rw [implementationRecord?, Option.or_eq_some_iff] at h
  rcases h with h | ⟨-, h⟩
  · exact (List.mem_filter.mp (List.mem_of_find?_eq_some h)).1
  · exact (List.mem_filter.mp (List.mem_of_head? h)).1

/-- Code for a node definition is that of an implementation. -/
theorem Document.resolve_source
    (h : d.resolve nodeDef target = .ok (.source name file? function? code?)) :
    NodeCode.ComesFrom d (.source name file? function? code?) := by
  unfold resolve at h
  split at h
  · cases h
  · split at h
    · rename_i record hrecord
      obtain ⟨rfl, rfl, rfl, rfl⟩ := Implementation.source.inj (Except.ok.inj h)
      exact .source (implementationRecord?_mem hrecord)
    · split at h <;> cases h

end Sources

namespace Graph

variable {r : Request} {path : String} {b b' : Build} {walk : Walk} {scope : Scope} {index : Nat}

/-- The nodes that the builder adds. -/
inductive Added (r : Request) : ShaderNode → Prop
  | geometric {property name : String} {source : ShaderNode}
      (hsource : geometricSource? r property = some source) : Added r { source with name }
  | planned (d : Draft) : Added r (d.node (code? r d.nodeDef.name))
  | undefined (e : Element) (name path : String) : Added r (undefinedNode e name path)

theorem comesFrom_of_code? {nodeDef : String} {code : NodeCode}
    (h : code? r nodeDef = some code) : code.ComesFrom r.document := by
  unfold code? at h
  split at h
  · rename_i himpl
    obtain rfl := Option.some.inj h
    unfold implementationOf at himpl
    split at himpl
    · obtain rfl := Sum.inl.inj (Except.ok.inj himpl)
      exact .geometry _
    · obtain ⟨impl, hresolve, heq⟩ := map_ok.mp himpl
      cases impl with
      | source name file? function? code? =>
        obtain rfl := Sum.inl.inj heq
        exact Document.resolve_source hresolve
      | graph name => cases heq
  · cases h

/-- Code that a node has reads geometry or is that of an implementation. -/
theorem Added.comesFrom {n : ShaderNode} {code : NodeCode} (h : Added r n)
    (hcode : n.code? = some code) : code.ComesFrom r.document := by
  cases h with
  | geometric hsource =>
    obtain ⟨⟨nodeDef, category, type, index?⟩, -, hsource⟩ := Option.bind_eq_some_iff.mp hsource
    obtain ⟨reader, -, rfl⟩ := Option.map_eq_some_iff.mp hsource
    obtain rfl := Option.some.inj hcode
    exact .geometry reader
  | planned d => exact comesFrom_of_code? hcode
  | undefined e name path => cases hcode

/-! ## What is kept by a build -/

/-- All nodes are ones that the builder adds. -/
def AllAdded (r : Request) (b : Build) : Prop := ∀ n ∈ b.nodes, Added r n

/-- The walk adds nodes of these kinds only. -/
def WalkAdds (r : Request) (walk : Walk) : Prop :=
  ∀ ⦃scope name isRoot b index b'⦄, walk scope name isRoot b = .ok (index, b') →
    AllAdded r b → AllAdded r b'

theorem AllAdded.freshName {base name : String} (h : AllAdded r b)
    (hname : freshName base b = .ok (name, b')) : AllAdded r b' := by
  obtain ⟨-, rfl⟩ := freshName_ok.mp hname
  exact h

theorem AllAdded.pushNode {node : ShaderNode} (h : AllAdded r b) (hnode : Added r node)
    (hpush : pushNode node b = .ok (index, b')) : AllAdded r b' := by
  obtain ⟨-, rfl⟩ := pushNode_ok.mp hpush
  exact List.forall_mem_append.mpr ⟨h, List.forall_mem_singleton.mpr hnode⟩

theorem AllAdded.geometry {property : String} {found? : Option Nat} (h : AllAdded r b)
    (hstep : GeometryStep r property b found? b') : AllAdded r b' := by
  cases hstep with
  | unknown _ => exact h
  | known _ _ => exact h
  | new hsource _ hname hpush hrecord =>
    have hpushed := (h.freshName hname).pushNode (.geometric hsource) hpush
    obtain rfl := recordBuilt_ok.mp hrecord
    exact hpushed

section Walk

variable (hwalk : WalkAdds r walk)

include hwalk

theorem AllAdded.inputs {inst : Instance Nat} {nodeName nodePath : String}
    {defInputs : List Element} {inputs : List ShaderInput} (h : AllAdded r b)
    (hstep : InputsStep r walk scope inst nodeName nodePath defInputs b inputs b') :
    AllAdded r b' := by
  induction hstep with
  | nil => exact h
  | cons hinput _ ih =>
    refine ih ?_
    cases hinput with
    | added _ => exact h
    | node _ _ hrun => exact hwalk hrun h
    | outer _ _ => exact h
    | own _ _ hown =>
      cases hown with
      | geometry _ hgeometry => exact h.geometry hgeometry
      | bound _ hclassify => cases hclassify <;> exact h

theorem AllAdded.plan {p : Plan} (h : AllAdded r b) (hstep : PlanStep r walk p b index b') :
    AllAdded r b' := by
  obtain ⟨hname, hinputs, hadd⟩ := hstep
  have hbound := (h.freshName hname).inputs hwalk hinputs
  cases hadd with
  | inner _ hrun => exact hwalk hrun hbound
  | single _ _ hpush => exact hbound.pushNode (.planned _) hpush

theorem AllAdded.element {e : Element} {key : String} {isRoot : Bool} (h : AllAdded r b)
    (hstep : ElementStep r walk scope e key path isRoot b index b') : AllAdded r b' := by
  cases hstep with
  | defined _ hplan hconversion =>
    have hbuilt := h.plan hwalk hplan
    cases hconversion with
    | missing _ => exact hbuilt
    | unneeded _ _ => exact hbuilt
    | needed _ _ hplan' => exact hbuilt.plan hwalk hplan'
  | undefined _ _ hname hpush => exact (h.freshName hname).pushNode (.undefined _ _ _) hpush

theorem buildNodeWith_adds : WalkAdds r (buildNodeWith r walk) := by
  intro scope name isRoot b index b' hrun h
  cases buildNodeWith_ok hrun with
  | known _ => exact h
  | new _ _ hbegin _ hstep hend hrecord =>
    obtain rfl := beginNode_ok.mp hbegin
    have hbegun : AllAdded r { b with inProgress := scope.keyOf name :: b.inProgress } := h
    have hbuilt := hbegun.element hwalk hstep
    obtain rfl := endNode_ok.mp hend
    obtain rfl := recordBuilt_ok.mp hrecord
    exact hbuilt

end Walk

theorem buildNode_adds (r : Request) (depth : Nat) : WalkAdds r (buildNode r depth) := by
  induction depth with
  | zero => exact fun _ _ _ _ _ _ hrun => absurd hrun throw_ok
  | succ depth ih => exact buildNodeWith_adds ih

/-- Whatever is built for an element, its nodes are of these kinds. -/
theorem buildWithin_added {depth root : Nat} (h : buildWithin r depth path = .ok (root, b)) :
    AllAdded r b := by
  have hwalk := buildNode_adds r depth
  have hempty : AllAdded r {} := List.forall_mem_nil _
  cases buildRoot_ok h with
  | shaderRef _ _ _ hplan => exact hempty.plan hwalk hplan
  | output _ _ _ _ hrun => exact hwalk hrun hempty
  | node _ _ _ hrun => exact hwalk hrun hempty

end Graph

end MaterialViewer
