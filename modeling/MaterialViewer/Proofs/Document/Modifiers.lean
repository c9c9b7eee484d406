import MaterialViewer.Document.Modifiers
import MaterialViewer.Proofs.Document.Places
import MaterialViewer.Proofs.Lists

/-!
# Proofs: applying modifiers

Modifiers change a document in one pass. Of the elements below the root those stay that are not
skipped, nor any element above them below the root, and it is the names in the document as it was
that decide this. What stays keeps its place in the tree, and each of its texts is looked up in the
table once. Afterwards all file prefixes below the root are terminated, and so there is nothing left
to terminate; the root keeps the file prefix that it has.
-/

namespace MaterialViewer

namespace Document

/-- The places of the elements below the root. -/
def places (d : Document) : List Element.Place := Element.placesBelow "" [] d.elements

end Document

namespace DocumentModifiers

variable {m : DocumentModifiers} {e old new : Element} {es : List Element}

/-! ## What modifiers do -/

/-- A text and what stands for it afterwards: its entry in the table, or the text itself. -/
def Replaces (m : DocumentModifiers) (old new : String) : Prop :=
  Ordered.get? old m.remap = some new ∨ Ordered.get? old m.remap = none ∧ new = old

/-- A text ends with the terminator. -/
def IsTerminated (m : DocumentModifiers) (value : String) : Prop :=
  m.prefixTerminator.toList <:+ value.toList

instance (m : DocumentModifiers) : DecidablePred m.IsTerminated :=
  fun value => inferInstanceAs (Decidable (m.prefixTerminator.toList <:+ value.toList))

/-- An attribute and what stands for it afterwards: the same key, with the value replaced and, for a
file prefix that does not end with the terminator then, the terminator after it. -/
structure RewritesAttribute (m : DocumentModifiers) (old new : String × String) : Prop where
  key : new.1 = old.1
  value : ∃ value, m.Replaces old.2 value ∧
    new.2 = if old.1 = filePrefixKey ∧ ¬ m.IsTerminated value then value ++ m.prefixTerminator
      else value

/-- An element and what stands for it afterwards, apart from what is below them. -/
structure Rewrites (m : DocumentModifiers) (old new : Element) : Prop where
  category : m.Replaces old.category new.category
  name : m.Replaces old.name new.name
  attributes : List.Forall₂ m.RewritesAttribute old.attributes new.attributes
  sourceUri : new.sourceUri = old.sourceUri

/-- Neither the category nor the name of an element is to be skipped. -/
def Spares (m : DocumentModifiers) (e : Element) : Prop := e.category ∉ m.skip ∧ e.name ∉ m.skip

instance (m : DocumentModifiers) : DecidablePred m.Spares :=
  fun e => inferInstanceAs (Decidable (e.category ∉ m.skip ∧ e.name ∉ m.skip))

theorem skips_eq_false_iff : m.skips e = false ↔ m.Spares e := by
  simp [skips, Spares]

theorem replaces_replace (m : DocumentModifiers) (text : String) :
    m.Replaces text (m.replace text) := by
  unfold Replaces replace
  cases hentry : Ordered.get? text m.remap with
  | none => exact .inr ⟨rfl, rfl⟩
  | some entry => exact .inl rfl

theorem terminate_eq (m : DocumentModifiers) (value : String) : m.terminate value =
    if m.IsTerminated value then value else value ++ m.prefixTerminator := by
  unfold terminate
  by_cases hend : m.IsTerminated value
  · rw [if_pos hend, if_pos (List.isSuffixOf_iff_suffix.mpr hend)]
  · rw [if_neg hend, if_neg (mt List.isSuffixOf_iff_suffix.mp hend)]

theorem rewritesAttribute_applyAttribute (m : DocumentModifiers) (entry : String × String) :
    m.RewritesAttribute entry (m.applyAttribute entry) := by
  refine ⟨rfl, m.replace entry.2, m.replaces_replace entry.2, ?_⟩
  unfold applyAttribute
  dsimp only
  by_cases hkey : entry.1 = filePrefixKey
  · rw [if_pos hkey, terminate_eq]
    by_cases hend : m.IsTerminated (m.replace entry.2)
    · rw [if_pos hend, if_neg fun h => h.2 hend]
    · rw [if_neg hend, if_pos ⟨hkey, hend⟩]
  · rw [if_neg hkey, if_neg fun h => hkey h.1]

theorem rewrites_applyElement (m : DocumentModifiers) (e : Element) :
    m.Rewrites e (m.applyElement e) := by
  obtain ⟨category, name, attributes, children, sourceUri⟩ := e
  rw [applyElement]
  refine ⟨m.replaces_replace category, m.replaces_replace name, ?_, rfl⟩
  rw [List.forall₂_map_right_iff, List.forall₂_same]
  exact fun entry _ => m.rewritesAttribute_applyAttribute entry

/-! ## The whole tree -/

/-- The element at a place and those above it stay. -/
def SparesPlace (m : DocumentModifiers) (p : Element.Place) : Prop :=
  ∀ e ∈ p.element :: p.above, m.Spares e

instance (m : DocumentModifiers) : DecidablePred m.SparesPlace :=
  fun p => inferInstanceAs (Decidable (∀ e ∈ p.element :: p.above, m.Spares e))

/-- Two places of one depth: the element and all elements above it have been rewritten. -/
def RewritesPlace (m : DocumentModifiers) (p q : Element.Place) : Prop :=
  List.Forall₂ m.Rewrites (p.element :: p.above) (q.element :: q.above)

theorem filter_placesAt_of_not_spares {path : String} {above : List Element} (he : ¬ m.Spares e) :
    (Element.placesAt path above e).filter m.SparesPlace = [] := by
  have hself : ¬ m.SparesPlace ⟨path, above, e⟩ := fun h => he (h e List.mem_cons_self)
  rw [Element.placesAt_eq, List.filter_cons_of_neg (by simpa using hself)]
  refine Element.filter_placesBelow_eq_nil fun p hmem => decide_eq_false fun hspares => ?_
  exact he (hspares e (List.mem_cons_of_mem _ hmem))

mutual

theorem placesAt_applyElement (path path' : String) {above above' : List Element}
    (habove : List.Forall₂ m.Rewrites above above') (hspared : ∀ e ∈ above, m.Spares e) :
    ∀ e, m.Spares e →
      List.Forall₂ m.RewritesPlace ((Element.placesAt path above e).filter m.SparesPlace)
        (Element.placesAt path' above' (m.applyElement e))
  | ⟨category, name, attributes, children, sourceUri⟩, he => by
    have hchain := List.Forall₂.cons
      (m.rewrites_applyElement ⟨category, name, attributes, children, sourceUri⟩) habove
    have hchainSpared := List.forall_mem_cons.mpr ⟨he, hspared⟩
    have hplace : m.SparesPlace ⟨path, above, ⟨category, name, attributes, children, sourceUri⟩⟩ :=
      hchainSpared
    rw [Element.placesAt, List.filter_cons_of_pos (by simpa using hplace)]
    exact .cons hchain (placesBelow_applyAll _ _ hchain hchainSpared children)

/-- After the modifiers have been applied there are, in order, the places that were spared, with all
that is on the way to them rewritten. -/
theorem placesBelow_applyAll (path path' : String) {above above' : List Element}
    (habove : List.Forall₂ m.Rewrites above above') (hspared : ∀ e ∈ above, m.Spares e) :
    ∀ es,
      List.Forall₂ m.RewritesPlace ((Element.placesBelow path above es).filter m.SparesPlace)
        (Element.placesBelow path' above' (m.applyAll es))
  | [] => .nil
  | e :: es => by
    rw [Element.placesBelow, List.filter_append, applyAll]
    by_cases he : m.Spares e
    · rw [if_neg (by simpa using skips_eq_false_iff.mpr he), Element.placesBelow]
      exact List.rel_append (placesAt_applyElement _ _ habove hspared e he)
        (placesBelow_applyAll _ _ habove hspared es)
    · rw [if_pos (by simpa using mt skips_eq_false_iff.mp he), filter_placesAt_of_not_spares he,
        List.nil_append]
      exact placesBelow_applyAll _ _ habove hspared es

end

/-- Modifiers filter and map the tree once. What is below the root afterwards are, in order, the
elements that were spared with all above them, each still below what was above it before, with every
text replaced once and file prefixes terminated. The root and the file are as they were. -/
theorem apply_places (m : DocumentModifiers) (d : Document) :
    List.Forall₂ m.RewritesPlace (d.places.filter m.SparesPlace) (m.apply d).places ∧
      m.apply d = { d with root := { d.root with children := (m.apply d).elements } } :=
  ⟨placesBelow_applyAll "" "" .nil (List.forall_mem_nil _) d.elements, rfl⟩

/-! ## File prefixes -/

/-- The file prefixes of an element end with the terminator. -/
def HasTerminated (m : DocumentModifiers) (e : Element) : Prop :=
  ∀ value, (filePrefixKey, value) ∈ e.attributes → m.IsTerminated value

theorem isTerminated_append (m : DocumentModifiers) (value : String) :
    m.IsTerminated (value ++ m.prefixTerminator) := by
  rw [IsTerminated, String.toList_append]
  exact List.suffix_append _ _

theorem RewritesAttribute.isTerminated {old new : String × String}
    (h : m.RewritesAttribute old new) (hkey : new.1 = filePrefixKey) : m.IsTerminated new.2 := by
  obtain ⟨value, -, hvalue⟩ := h.value
  rw [hvalue]
  split
  · exact m.isTerminated_append value
  · rename_i hend
    exact not_not.mp fun h' => hend ⟨h.key ▸ hkey, h'⟩

theorem Rewrites.hasTerminated (h : m.Rewrites old new) : m.HasTerminated new :=
  fun value hvalue => forall_mem_of_forall₂ h.attributes
    (fun _ _ hrewrites => hrewrites.isTerminated) (filePrefixKey, value) hvalue rfl

/-- All file prefixes are terminated afterwards. -/
theorem hasTerminated_applyAll (m : DocumentModifiers) (es : List Element) :
    ∀ e ∈ Element.preorderAll (m.applyAll es), m.HasTerminated e := by
  have hplaces : ∀ p ∈ Element.placesBelow "" [] (m.applyAll es), m.HasTerminated p.element :=
    forall_mem_of_forall₂ (placesBelow_applyAll "" "" .nil (List.forall_mem_nil _) es)
      fun p q hpq => (List.forall₂_cons.mp hpq).1.hasTerminated
  rw [← Element.map_element_placesBelow "" []]
  exact List.forall_mem_map.mpr hplaces

/-- The modifiers that only terminate file prefixes. -/
def terminating (m : DocumentModifiers) : DocumentModifiers := { m with remap := [], skip := [] }

theorem applyAttribute_terminating {entry : String × String}
    (h : entry.1 = filePrefixKey → m.IsTerminated entry.2) :
    m.terminating.applyAttribute entry = entry := by
  have hvalue : m.terminating.replace entry.2 = entry.2 := rfl
  rw [applyAttribute, hvalue]
  by_cases hkey : entry.1 = filePrefixKey
  · have hend : m.terminating.IsTerminated entry.2 := h hkey
    rw [if_pos hkey, terminate_eq, if_pos hend]
  · rw [if_neg hkey]

mutual

theorem applyElement_terminating : ∀ e : Element, (∀ x ∈ e.preorder, m.HasTerminated x) →
    m.terminating.applyElement e = e
  | ⟨category, name, attributes, children, sourceUri⟩, h => by
    rw [Element.preorder_eq, List.forall_mem_cons] at h
    have hattributes : attributes.map m.terminating.applyAttribute = attributes := by
      refine (List.map_congr_left fun entry hentry => ?_).trans (List.map_id attributes)
      refine applyAttribute_terminating fun hkey => h.1 entry.2 ?_
      exact hkey ▸ hentry
    rw [applyElement, hattributes, applyAll_terminating children h.2]
    rfl

/-- Where all file prefixes are terminated there is nothing to do. -/
theorem applyAll_terminating : ∀ es : List Element,
    (∀ x ∈ Element.preorderAll es, m.HasTerminated x) → m.terminating.applyAll es = es
  | [], _ => rfl
  | e :: es, h => by
    rw [Element.preorderAll, List.forall_mem_append] at h
    rw [applyAll, if_neg (by simp [skips, terminating]), applyElement_terminating e h.1,
      applyAll_terminating es h.2]

end

/-- After modifiers have been applied, all file prefixes of the document are terminated exactly if
that of the root was; those of all other elements are. -/
theorem apply_terminates_iff (m : DocumentModifiers) (d : Document) :
    ((∀ e ∈ (m.apply d).root.preorder, ∀ value, e.attribute? filePrefixKey = some value →
        m.IsTerminated value) ↔
      ∀ value, d.root.attribute? filePrefixKey = some value → m.IsTerminated value) ∧
    (∀ e ∈ Element.preorderAll (m.apply d).elements, ∀ value,
      e.attribute? filePrefixKey = some value → m.IsTerminated value) ∧
    m.terminating.apply (m.apply d) = m.apply d := by
  have hbelow : ∀ e ∈ Element.preorderAll (m.apply d).elements, m.HasTerminated e :=
    m.hasTerminated_applyAll d.elements
  have hothers : ∀ e ∈ Element.preorderAll (m.apply d).elements, ∀ value,
      e.attribute? filePrefixKey = some value → m.IsTerminated value :=
    fun e he value hvalue => hbelow e he value (Ordered.mem_of_get? hvalue)
  refine ⟨?_, hothers, ?_⟩
  · rw [Element.preorder_eq, List.forall_mem_cons]
    exact and_iff_left hothers
  · have hsame : m.terminating.applyAll (m.apply d).elements = (m.apply d).elements :=
      applyAll_terminating _ hbelow
    rw [apply, ← Document.elements, hsame]
    rfl

/-- A document with a file prefix at its root and at its material. -/
def texturedDocument : Document where
  root :=
    { category := Document.rootCategory, name := "", attributes := [(filePrefixKey, "textures")]
      children :=
        [{ category := "material", name := "m", attributes := [(filePrefixKey, "images")] }] }

/-- The file prefix of the root is not terminated. -/
theorem not_terminates_textured :
    let m : DocumentModifiers := { prefixTerminator := "/" }
    m.prefixTerminator ≠ "" ∧
      ¬ ∀ e ∈ (m.apply texturedDocument).root.preorder, ∀ value,
        e.attribute? filePrefixKey = some value → m.IsTerminated value := by
  intro m
  refine ⟨by decide, fun h => ?_⟩
  have hroot : m.IsTerminated "textures" :=
    h (m.apply texturedDocument).root (Element.preorder_eq _ ▸ List.mem_cons_self) "textures" rfl
  exact absurd hroot (by decide)

end DocumentModifiers

end MaterialViewer
