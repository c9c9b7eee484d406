import MaterialViewer.Proofs.Graph.Steps

/-!
# Proofs: the depth of a walk

More depth never changes the result of a walk that did not run out of it, be it a graph or another
error. So the depth stands for nothing but the recursion of the walk: where it suffices, the walk
without a bound terminates, with the same result.
-/

namespace MaterialViewer.Graph

variable {α β γ : Type} {r : Request} {walk walk' : Walk}

/-- The second step gives what the first one gives, if that did not run out of depth. -/
def Settles (m m' : BuildM α) : Prop := ∀ b, m b ≠ .error .endlessNesting → m' b = m b

theorem Settles.refl (m : BuildM α) : Settles m m := fun _ _ => rfl

theorem Settles.bind {m m' : BuildM α} {f f' : α → BuildM β} (h : Settles m m')
    (hf : ∀ a, Settles (f a) (f' a)) : Settles (m >>= f) (m' >>= f') := by
  intro b hb
  cases hm : m b with
  | error e =>
    have hm' : m' b = .error e := by
      rw [h b fun hendless => hb (bind_of_error hendless), hm]
    rw [bind_of_error hm, bind_of_error hm']
  | ok result =>
    obtain ⟨a, b₁⟩ := result
    have hm' : m' b = .ok (a, b₁) := by
      rw [h b (by rw [hm]; exact nofun), hm]
    rw [bind_of_ok hm] at hb ⊢
    rw [bind_of_ok hm']
    exact hf a b₁ hb

theorem Settles.mapM {f f' : γ → BuildM α} (h : ∀ x, Settles (f x) (f' x)) (xs : List γ) :
    Settles (xs.mapM f) (xs.mapM f') := by
  induction xs with
  | nil => exact .refl _
  | cons x rest ih =>
    rw [List.mapM_cons, List.mapM_cons]
    exact (h x).bind fun _ => ih.bind fun _ => .refl _

/-- A walk gives what another one gives wherever that does not run out of depth. -/
def WalkSettles (walk walk' : Walk) : Prop :=
  ∀ scope name isRoot, Settles (walk scope name isRoot) (walk' scope name isRoot)

section Steps

variable (hwalk : WalkSettles walk walk')

include hwalk

theorem buildInput_settles (scope : Scope) (inst : Instance Nat) (nodeName nodePath : String)
    (defInput : Element) : Settles (buildInput r walk scope inst nodeName nodePath defInput)
      (buildInput r walk' scope inst nodeName nodePath defInput) := by
  unfold buildInput
  simp only
  cases inst.connection? defInput.name with
  | some index => exact .refl _
  | none =>
    simp only
    cases scope.follow (inst.link r.document scope.graph defInput) with
    | node target name => exact (hwalk target name false).bind fun _ => .refl _
    | outer input => exact .refl _
    | nothing => exact .refl _

theorem addNode_settles (d : Draft) : Settles (addNode r walk d) (addNode r walk' d) := by
  unfold addNode
  rcases implementationOf r d.nodeDef.name with cause | code | graph
  · exact .refl _
  · exact .refl _
  · simp only
    cases outputNode? r.document graph "" with
    | none => exact .refl _
    | some name => exact hwalk _ name d.isRoot

theorem buildPlan_settles (p : Plan) : Settles (buildPlan r walk p) (buildPlan r walk' p) := by
  have hinputs (name : String) : Settles (buildInputs r walk p.scope p.inst p.nodeDef name p.path)
      (buildInputs r walk' p.scope p.inst p.nodeDef name p.path) :=
    .mapM (buildInput_settles hwalk p.scope p.inst name p.path) _
  have hdraft : Settles (p.draft r walk) (p.draft r walk') :=
    (Settles.refl _).bind fun name => (hinputs name).bind fun _ => .refl _
  exact hdraft.bind (addNode_settles hwalk)

theorem convertColor_settles (scope : Scope) (e : Element) (index : Nat) (path : String) :
    Settles (convertColor r walk scope e index path) (convertColor r walk' scope e index path) := by
  refine (Settles.refl _).bind fun b => ?_
  cases b.nodes[index]? with
  | none => exact .refl _
  | some node =>
    simp only
    cases conversionOf? r e (node.inputs.map (·.type)) node.type with
    | none => exact .refl _
    | some nodeDef => exact buildPlan_settles hwalk _

theorem buildElement_settles (scope : Scope) (e : Element) (key path : String) (isRoot : Bool) :
    Settles (buildElement r walk scope e key path isRoot)
      (buildElement r walk' scope e key path isRoot) := by
  unfold buildElement
  cases r.document.nodeDefOfNode? e with
  | none => exact .refl _
  | some nodeDef =>
    exact (buildPlan_settles hwalk _).bind fun index =>
      convertColor_settles hwalk scope e index path

theorem buildNodeWith_settles : WalkSettles (buildNodeWith r walk) (buildNodeWith r walk') := by
  intro scope name isRoot
  refine (Settles.refl _).bind fun b => ?_
  cases Ordered.get? (scope.keyOf name) b.built with
  | some index => exact .refl _
  | none =>
    simp only
    split
    · exact .refl _
    · refine (Settles.refl _).bind fun _ => ?_
      cases r.document.element? (scope.pathOf name) with
      | none => exact .refl _
      | some e => exact (buildElement_settles hwalk scope e _ _ isRoot).bind fun _ => .refl _

theorem buildRoot_settles (path : String) :
    Settles (buildRoot r walk path) (buildRoot r walk' path) := by
  unfold buildRoot
  cases r.document.element? path with
  | none => exact .refl _
  | some e =>
    simp only
    split
    · cases r.document.nodeDefOfShaderRef? e with
      | none => exact .refl _
      | some nodeDef => exact buildPlan_settles hwalk _
    · split
      · cases (r.document.element? (Document.splitPath path).1).filter
          (·.category = "nodegraph") with
        | none => exact .refl _
        | some graph =>
          cases e.filled? "nodename" with
          | none => exact .refl _
          | some name => exact hwalk _ name true
      · exact hwalk _ e.name true

end Steps

theorem buildNode_settles (r : Request) {depth depth' : Nat} (h : depth ≤ depth') :
    WalkSettles (buildNode r depth) (buildNode r depth') := by
  induction depth generalizing depth' with
  | zero => exact fun _ _ _ b hb => absurd rfl hb
  | succ depth ih =>
    obtain ⟨depth', rfl⟩ := Nat.exists_eq_add_one_of_ne_zero (Nat.ne_of_gt (Nat.zero_lt_of_lt h))
    exact buildNodeWith_settles (ih (Nat.le_of_succ_le_succ h))

/-- A result that is no lack of depth stays the same at every greater depth. -/
theorem graphWithin_eq {depth depth' : Nat} {path : String} (h : depth ≤ depth')
    (hdepth : buildWithin r depth path ≠ .error .endlessNesting) :
    graphWithin r depth' path = graphWithin r depth path := by
  rw [graphWithin, graphWithin]
  exact congrArg _ (buildRoot_settles (buildNode_settles r h) path {} hdepth)

end MaterialViewer.Graph
