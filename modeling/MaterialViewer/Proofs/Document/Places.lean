import MaterialViewer.Document.Element

/-!
# Proofs: places in a document

An element of a tree together with its path and with the elements above it. All places of a tree, in
the order of the document, are its elements, each one before its children. What a program collects
while it walks a tree is told by the places that it keeps.
-/

namespace MaterialViewer.Element

/-- An element in a tree. -/
structure Place where
  /-- The path from the root of the tree. -/
  path : String
  /-- The elements above it, the nearest one first. -/
  above : List Element
  /-- The element. -/
  element : Element

mutual

/-- The places of an element and of all elements below it, each before its children. -/
def placesAt (path : String) (above : List Element) : Element → List Place
  | e@⟨_, _, _, children, _⟩ => ⟨path, above, e⟩ :: placesBelow path (e :: above) children

/-- The places of the elements inside the element with a path, one tree after the other. -/
def placesBelow (path : String) (above : List Element) : List Element → List Place
  | [] => []
  | e :: es => placesAt (joinPath path e.name) above e ++ placesBelow path above es

end

theorem placesAt_eq (path : String) (above : List Element) (e : Element) :
    placesAt path above e = ⟨path, above, e⟩ :: placesBelow path (e :: above) e.children := by
  cases e
  rfl

mutual

theorem map_element_placesAt (path : String) (above : List Element) :
    ∀ e : Element, (placesAt path above e).map (·.element) = e.preorder
  | ⟨_, _, _, children, _⟩ => by
    rw [placesAt, preorder_eq, List.map_cons, map_element_placesBelow _ _ children]

/-- The elements of all places are those of the tree, in the order of the document. -/
theorem map_element_placesBelow (path : String) (above : List Element) :
    ∀ es : List Element, (placesBelow path above es).map (·.element) = preorderAll es
  | [] => rfl
  | e :: es => by
    rw [placesBelow, List.map_append, map_element_placesAt _ _ e, map_element_placesBelow _ _ es]
    rfl

end

mutual

theorem subset_above_of_mem_placesAt {path : String} {above : List Element} {p : Place} :
    ∀ {e : Element}, p ∈ placesAt path above e → above ⊆ p.above
  | ⟨_, _, _, children, _⟩, h => by
    rw [placesAt] at h
    rcases List.mem_cons.mp h with rfl | h
    · exact List.Subset.refl _
    · exact List.Subset.trans (List.subset_cons_self _ _) (subset_above_of_mem_placesBelow h)

/-- What is above a tree is above all its elements. -/
theorem subset_above_of_mem_placesBelow {path : String} {above : List Element} {p : Place} :
    ∀ {es : List Element}, p ∈ placesBelow path above es → above ⊆ p.above
  | [], h => nomatch h
  | e :: es, h => by
    rw [placesBelow] at h
    rcases List.mem_append.mp h with h | h
    · exact subset_above_of_mem_placesAt h
    · exact subset_above_of_mem_placesBelow h

end

/-- No place inside an element is kept by a test that none passes with that element above it. -/
theorem filter_placesBelow_eq_nil {keep : Place → Bool} {path : String} {e : Element}
    {above es : List Element} (h : ∀ p : Place, e ∈ p.above → keep p = false) :
    (placesBelow path (e :: above) es).filter keep = [] := by
  refine List.filter_eq_nil_iff.mpr fun p hp => ?_
  rw [h p (subset_above_of_mem_placesBelow hp List.mem_cons_self)]
  exact Bool.false_ne_true

end MaterialViewer.Element
