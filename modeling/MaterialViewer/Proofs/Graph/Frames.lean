import MaterialViewer.Proofs.Graph.PlainNames

/-!
# Proofs: what a walk leaves alone

The nodes of a node graph that stands in the place of a node have keys that begin with the key of
that node. A walk comes to such a key only by way of the node itself. So while the node is in
progress, whatever else is built, nothing is recorded for these keys: a walk that came to the node
again would run in a circle.

The walk is followed with a key and the scope in which it looks names up. The scope is outside of
the node with that key, and stays outside, since keys grow only by the node graph in the place of
the node that is built.
-/

namespace MaterialViewer.Graph

variable {r : Request} {path key k : String} {b b₁ b' : Build} {walk : Walk} {scope : Scope}
  {index : Nat}

/-! ## Keys inside a node -/

/-- A key begins with the key of a node, so it is that of a node in its place. -/
def Inside (key k : String) : Prop := key.toList ++ ['>'] <+: k.toList

theorem Inside.mem (h : Inside key k) : '>' ∈ k.toList :=
  h.subset (List.mem_append_right _ (List.mem_singleton_self _))

/-- Whether a key is inside is seen from what stands before its path. -/
theorem Inside.of_append {front path : String} (hpath : '>' ∉ path.toList)
    (h : Inside key (front ++ path)) : Inside key front := by
  rw [Inside, String.toList_append] at h
  rcases List.prefix_or_prefix_of_prefix h (List.prefix_append _ _) with hshort | ⟨more, hmore⟩
  · exact hshort
  · rw [← hmore, List.prefix_append_right_inj] at h
    rcases List.eq_nil_or_concat more with rfl | ⟨init, last, rfl⟩
    · rw [List.append_nil] at hmore
      exact ⟨[], (List.append_nil _).trans hmore.symm⟩
    · -- the `>` at the end would be in the path
      rw [List.concat_eq_append, ← List.append_assoc] at hmore
      obtain ⟨-, hlast⟩ := List.append_inj' hmore rfl
      refine absurd (h.subset ?_) hpath
      rw [List.concat_eq_append, hlast]
      exact List.mem_append_right _ (List.mem_singleton_self _)

theorem Inside.of_append_angle (h : Inside key (k ++ ">")) : key = k ∨ Inside key k := by
  rw [Inside, String.toList_append] at h
  exact (List.prefix_concat_iff.mp h).imp_left fun heq =>
    String.toList_injective (List.append_cancel_right heq)

/-- What a key begins with is not inside of it. -/
theorem not_inside_front (front path : String) : ¬ Inside (front ++ path) front := by
  intro h
  have hle := h.length_le
  simp only [String.toList_append, List.length_append, List.length_singleton] at hle
  omega

/-! ## Frames -/

/-- A step keeps the nodes in progress, and what is recorded for the keys inside a node. -/
structure Frame (key : String) (b b' : Build) : Prop where
  progress : b'.inProgress = b.inProgress
  built : ∀ k, Inside key k → Ordered.get? k b'.built = Ordered.get? k b.built

theorem Frame.refl (key : String) (b : Build) : Frame key b b := ⟨rfl, fun _ _ => rfl⟩

theorem Frame.trans (h : Frame key b b₁) (h' : Frame key b₁ b') : Frame key b b' :=
  ⟨h'.progress.trans h.progress, fun k hk => (h'.built k hk).trans (h.built k hk)⟩

theorem freshName_frame {base name : String} (h : freshName base b = .ok (name, b')) :
    Frame key b b' := by
  obtain ⟨-, rfl⟩ := freshName_ok.mp h
  exact ⟨rfl, fun _ _ => rfl⟩

theorem pushNode_frame {node : ShaderNode} (h : pushNode node b = .ok (index, b')) :
    Frame key b b' := by
  obtain ⟨-, rfl⟩ := pushNode_ok.mp h
  exact ⟨rfl, fun _ _ => rfl⟩

theorem recordBuilt_frame (hk : ¬ Inside key k) (h : recordBuilt k index b = .ok ((), b')) :
    Frame key b b' := by
  obtain rfl := recordBuilt_ok.mp h
  refine ⟨rfl, fun k' hk' => Ordered.get?_put_of_ne ?_ _ _⟩
  rintro rfl
  exact hk hk'

theorem classify_frame {p : Parameter} {isAuthored : Bool} {binding : InputBinding}
    (h : ClassifyStep r p isAuthored b binding b') : Frame key b b' := by
  cases h with
  | fixed _ => exact .refl key b
  | registered _ => exact ⟨rfl, fun _ _ => rfl⟩

theorem geometry_frame {property : String} {found? : Option Nat}
    (h : GeometryStep r property b found? b') : Frame key b b' := by
  cases h with
  | unknown _ => exact .refl key b
  | known _ _ => exact .refl key b
  | new hsource _ hname hpush hrecord =>
    obtain ⟨_, hproperty, -⟩ := Option.bind_eq_some_iff.mp hsource
    have hangle := (geometricKey_spec (Option.isSome_of_eq_some hproperty)).1
    exact (freshName_frame hname).trans ((pushNode_frame hpush).trans
      (recordBuilt_frame (fun hinside => hangle hinside.mem) hrecord))

/-! ## Outside a node -/

/-- Names are looked up outside of the node with a key. -/
structure Scope.Outside (key : String) (s : Scope) : Prop where
  outer : s.keyPrefix = "" ∨ ∃ k, s.keyPrefix = k ++ ">"
  graph : '>' ∉ s.graph.toList
  outside : ¬ Inside key s.keyPrefix

/-- The node with a key is not built again: it is in progress, unless no name leads to it, and no
conversion has its key. -/
structure Taken (r : Request) (key : String) (b : Build) : Prop where
  node : ∀ p g n, KeyParts p g n → Named r.document n → p ++ Element.joinPath g n = key →
    key ∈ b.inProgress
  conversion : ∀ p g n, KeyParts p g n → p ++ Element.joinPath g (n ++ conversionEnding) ≠ key

theorem Taken.frame (ht : Taken r key b) (h : Frame key b b') : Taken r key b' :=
  ⟨fun p g n hparts hnamed hkey => h.progress ▸ ht.node p g n hparts hnamed hkey, ht.conversion⟩

/-- The walk for a name outside of a node has a frame. -/
def WalkFrames (r : Request) (key : String) (walk : Walk) : Prop :=
  ∀ ⦃scope name isRoot b index b'⦄, walk scope name isRoot b = .ok (index, b') →
    scope.Outside key → Named r.document name → Taken r key b → Frame key b b'

theorem KeyParts.not_inside {p g n : String} (h : KeyParts p g n) (hp : ¬ Inside key p) :
    ¬ Inside key (p ++ Element.joinPath g n) :=
  fun hinside => hp (hinside.of_append h.path_angle)

/-- The key of a conversion is put together like that of a node. -/
theorem keyPrefix_conversionPath (scope : Scope) (name : String) :
    scope.keyPrefix ++ conversionPath (scope.pathOf name) =
      scope.keyPrefix ++ Element.joinPath scope.graph (name ++ conversionEnding) := by
  rw [conversionPath_eq, Scope.pathOf, joinPath_append]

section Frames

variable (hnames : PlainNames r.document path)

include hnames

theorem Scope.Outside.keyParts {name : String} (h : scope.Outside key)
    (hnamed : Named r.document name) : KeyParts scope.keyPrefix scope.graph name :=
  ⟨h.outer, h.graph, (hnames.plain hnamed).angle, (hnames.plain hnamed).slash⟩

theorem Scope.Outside.not_inside_keyOf {name : String} (h : scope.Outside key)
    (hnamed : Named r.document name) : ¬ Inside key (scope.keyOf name) := by
  rw [Scope.keyOf, Scope.pathOf]
  exact (h.keyParts hnames hnamed).not_inside h.outside

variable (hwalk : WalkFrames r key walk)

include hwalk

theorem input_frame {inst : Instance Nat} {nodeName nodePath : String} {defInput : Element}
    {input : ShaderInput} (hscope : scope.Outside key) (hinst : Authored r.document inst)
    (h : InputStep r walk scope inst nodeName nodePath defInput b input b')
    (ht : Taken r key b) : Frame key b b' := by
  cases h with
  | added _ => exact .refl key b
  | node _ href hrun =>
    cases hlink : inst.link r.document scope.graph defInput with
    | node name =>
      rw [hlink] at href
      obtain ⟨rfl, rfl⟩ := Reference.node.inj href
      exact hwalk hrun hscope (hinst.named_of_node hlink) ht
    | output graph name =>
      rw [hlink] at href
      obtain ⟨rfl, rfl⟩ := Reference.node.inj href
      obtain ⟨hname, e, he, hfilled⟩ := hinst.named_of_output hlink
      have hgraph := (hnames.reference e he graph hfilled).1
      exact hwalk hrun ⟨hscope.outer, hgraph, hscope.outside⟩ hname ht
    | interface name =>
      rw [hlink] at href
      simp only [Scope.follow] at href
      split at href <;> cases href
    | nothing =>
      rw [hlink] at href
      cases href
  | outer _ _ => exact .refl key b
  | own _ _ hstep =>
    cases hstep with
    | geometry _ hstep => exact geometry_frame hstep
    | bound _ hstep => exact classify_frame hstep

theorem inputs_frame {inst : Instance Nat} {nodeName nodePath : String} {defInputs : List Element}
    {inputs : List ShaderInput} (hscope : scope.Outside key) (hinst : Authored r.document inst)
    (h : InputsStep r walk scope inst nodeName nodePath defInputs b inputs b')
    (ht : Taken r key b) : Frame key b b' := by
  induction h with
  | nil => exact .refl key _
  | cons hinput _ ih =>
    have hframe := input_frame hnames hwalk hscope hinst hinput ht
    exact hframe.trans (ih (ht.frame hframe))

theorem add_frame {d : Draft} (hkey : ¬ Inside key (d.key ++ ">"))
    (h : AddStep r walk d b index b') (ht : Taken r key b) : Frame key b b' := by
  cases h with
  | inner hexpansion hrun =>
    exact hwalk hrun ⟨.inr ⟨d.key, rfl⟩, (hnames.expansion hexpansion).1, hkey⟩
      (expansion?_spec hexpansion).2 ht
  | single _ _ hpush => exact pushNode_frame hpush

theorem plan_frame {p : Plan} (h : PlanStep r walk p b index b') (hscope : p.scope.Outside key)
    (hinst : Authored r.document p.inst) (hkey : ¬ Inside key (p.key ++ ">"))
    (ht : Taken r key b) : Frame key b b' := by
  obtain ⟨hname, hinputs, hadd⟩ := h
  have hnamed : Frame key b _ := freshName_frame hname
  have hbound := hnamed.trans (inputs_frame hnames hwalk hscope hinst hinputs (ht.frame hnamed))
  exact hbound.trans (add_frame hnames hwalk hkey hadd (ht.frame hbound))

theorem conversion_frame {e : Element} {name : String} {index' : Nat} (hscope : scope.Outside key)
    (hname : Named r.document name)
    (h : ConversionStep r walk scope e index (scope.pathOf name) b index' b')
    (ht : Taken r key b) : Frame key b b' := by
  cases h with
  | missing _ => exact .refl key b
  | unneeded _ _ => exact .refl key b
  | needed _ _ hplan =>
    have hparts := hscope.keyParts hnames hname
    refine plan_frame hnames hwalk hplan hscope (fun _ _ hinput => nomatch hinput) ?_ ht
    intro hinside
    rcases hinside.of_append_angle with heq | hinside
    · refine ht.conversion _ _ _ hparts ?_
      rw [heq, ← keyPrefix_conversionPath]
      rfl
    · refine hparts.conversion.not_inside hscope.outside ?_
      rw [← keyPrefix_conversionPath]
      exact hinside

theorem element_frame {e : Element} {name : String} {isRoot : Bool} (hscope : scope.Outside key)
    (hname : Named r.document name) (hnew : scope.keyOf name ≠ key)
    (helement : r.document.element? (scope.pathOf name) = some e)
    (h : ElementStep r walk scope e (scope.keyOf name) (scope.pathOf name) isRoot b index b')
    (ht : Taken r key b) : Frame key b b' := by
  cases h with
  | defined _ hplan hconversion =>
    have hkey : ¬ Inside key (scope.keyOf name ++ ">") := fun hinside =>
      hinside.of_append_angle.elim (hnew ·.symm) (hscope.not_inside_keyOf hnames hname)
    have hframe := plan_frame hnames hwalk hplan hscope
      (authored_node (Document.mem_of_element? helement)) hkey ht
    exact hframe.trans
      (conversion_frame hnames hwalk hscope hname hconversion (ht.frame hframe))
  | undefined _ _ hfresh hpush => exact (freshName_frame hfresh).trans (pushNode_frame hpush)

end Frames

theorem buildNode_frames (hnames : PlainNames r.document path) (key : String) (depth : Nat) :
    WalkFrames r key (buildNode r depth) := by
  induction depth with
  | zero => exact fun _ _ _ _ _ _ hrun => absurd hrun throw_ok
  | succ depth ih =>
    intro scope name isRoot b index b' hrun hscope hname ht
    have hparts := hscope.keyParts hnames hname
    cases buildNodeWith_ok hrun with
    | known _ => exact .refl key b
    | new _ hprogress hbegin helement hstep hend hrecord =>
      obtain rfl := beginNode_ok.mp hbegin
      obtain rfl := endNode_ok.mp hend
      -- the node with the key itself is in progress, so it is not the one that is built
      have hnew : scope.keyOf name ≠ key := fun heq =>
        hprogress (heq ▸ ht.node _ _ _ hparts hname heq)
      have ht₁ : Taken r key { b with inProgress := scope.keyOf name :: b.inProgress } :=
        ⟨fun p g n hp hn hk => List.mem_cons_of_mem _ (ht.node p g n hp hn hk), ht.conversion⟩
      have hframe := element_frame hnames ih hscope hname hnew helement hstep ht₁
      have hrecorded := recordBuilt_frame (hscope.not_inside_keyOf hnames hname) hrecord
      refine ⟨hrecorded.progress.trans ?_, fun k hk =>
        (hrecorded.built k hk).trans (hframe.built k hk)⟩
      show List.erase _ _ = _
      rw [hframe.progress, List.erase_cons_head]

end MaterialViewer.Graph
