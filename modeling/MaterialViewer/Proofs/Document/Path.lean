import MaterialViewer.Document.Basic

/-!
# Proofs: paths and what they lead to

A path is cut at its last slash, so a name without slashes is found again at the end of every path
that it was joined to. What a path leads to is an element of the document, and the definition that
is looked up for such an element is one of the document.
-/

namespace MaterialViewer

namespace Text

variable {sep : Char} {front back cs : List Char}

theorem splitAtLast?_eq_none (h : sep ∉ cs) : splitAtLast? sep cs = none := by
  induction cs with
  | nil => rfl
  | cons c cs ih =>
    have hc : c ≠ sep := fun heq => h (heq ▸ List.mem_cons_self)
    rw [splitAtLast?, ih fun hmem => h (List.mem_cons_of_mem c hmem)]
    exact if_neg hc

theorem splitAtLast?_append (h : sep ∉ back) :
    splitAtLast? sep (front ++ sep :: back) = some (front, back) := by
  induction front with
  | nil =>
    rw [List.nil_append, splitAtLast?, splitAtLast?_eq_none h]
    exact if_pos rfl
  | cons c front ih => rw [List.cons_append, splitAtLast?, ih]

theorem eq_append_of_splitAtLast? (h : splitAtLast? sep cs = some (front, back)) :
    cs = front ++ sep :: back := by
  induction cs generalizing front with
  | nil => cases h
  | cons c cs ih =>
    rw [splitAtLast?] at h
    split at h
    · rename_i front' back' hrest
      obtain ⟨rfl, rfl⟩ := Prod.mk.inj (Option.some.inj h)
      rw [ih hrest, List.cons_append]
    · obtain ⟨hc, heq⟩ := Option.ite_none_right_eq_some.mp h
      obtain ⟨rfl, rfl⟩ := Prod.mk.inj (Option.some.inj heq)
      rw [hc, List.nil_append]

theorem not_mem_of_splitAtLast?_eq_none (h : splitAtLast? sep cs = none) : sep ∉ cs := by
  induction cs with
  | nil => exact List.not_mem_nil
  | cons c cs ih =>
    rw [splitAtLast?] at h
    split at h
    · cases h
    · rename_i hrest
      have hc : c ≠ sep := fun heq => by simp [heq] at h
      intro hmem
      rcases List.mem_cons.mp hmem with heq | hmem
      · exact hc heq.symm
      · exact ih hrest hmem

/-- No separator stands behind the last one. -/
theorem not_mem_of_splitAtLast? (h : splitAtLast? sep cs = some (front, back)) : sep ∉ back := by
  induction cs generalizing front with
  | nil => cases h
  | cons c cs ih =>
    rw [splitAtLast?] at h
    split at h
    · rename_i front' back' hrest
      obtain ⟨rfl, rfl⟩ := Prod.mk.inj (Option.some.inj h)
      exact ih hrest
    · rename_i hrest
      obtain ⟨-, heq⟩ := Option.ite_none_right_eq_some.mp h
      obtain ⟨rfl, rfl⟩ := Prod.mk.inj (Option.some.inj heq)
      exact not_mem_of_splitAtLast?_eq_none hrest

/-- Every other character of a text is in one of the parts between separators. -/
theorem exists_mem_splitOn {c : Char} (h : c ∈ cs) (hc : c ≠ sep) :
    ∃ part ∈ splitOn sep cs, c ∈ part := by
  induction cs with
  | nil => cases h
  | cons c' cs ih =>
    unfold splitOn
    split
    · rename_i heq
      obtain ⟨part, hpart, hmem⟩ := ih ((List.mem_cons.mp h).resolve_left (heq ▸ hc))
      exact ⟨part, List.mem_cons_of_mem _ hpart, hmem⟩
    · cases hsplit : splitOn sep cs with
      | nil =>
        rcases List.mem_cons.mp h with rfl | h
        · exact ⟨_, List.mem_cons_self, List.mem_cons_self⟩
        · obtain ⟨part, hpart, -⟩ := ih h
          rw [hsplit] at hpart
          cases hpart
      | cons first rest =>
        rcases List.mem_cons.mp h with rfl | h
        · exact ⟨_, List.mem_cons_self, List.mem_cons_self⟩
        · obtain ⟨part, hpart, hmem⟩ := ih h
          rw [hsplit] at hpart
          rcases List.mem_cons.mp hpart with rfl | hpart
          · exact ⟨_, List.mem_cons_self, List.mem_cons_of_mem _ hmem⟩
          · exact ⟨part, List.mem_cons_of_mem _ hpart, hmem⟩

end Text

namespace Document

/-- The path of the parent is a part of the path. -/
theorem mem_of_mem_splitPath {path : String} {c : Char} (h : c ∈ (splitPath path).1.toList) :
    c ∈ path.toList := by
  unfold splitPath at h
  split at h
  · rename_i parent name hsplit
    rw [String.toList_ofList] at h
    rw [Text.eq_append_of_splitAtLast? hsplit]
    exact List.mem_append_left _ h
  · cases h

/-- A name without slashes is what is found at the end of a path. -/
theorem splitPath_joinPath {graph name : String} (h : '/' ∉ name.toList) :
    splitPath (Element.joinPath graph name) = (graph, name) := by
  unfold splitPath Element.joinPath
  by_cases hgraph : graph = ""
  · rw [if_pos hgraph, Text.splitAtLast?_eq_none h, hgraph]
  · have htext : (graph ++ "/" ++ name).toList = graph.toList ++ '/' :: name.toList := by
      simp [String.toList_append]
    rw [if_neg hgraph, htext, Text.splitAtLast?_append h]
    simp only [String.ofList_toList]

end Document

namespace Element

variable {e c root : Element}

theorem mem_preorderAll {es : List Element} :
    e ∈ preorderAll es ↔ ∃ t ∈ es, e ∈ t.preorder := by
  induction es with
  | nil => simp [preorderAll]
  | cons t es ih => simp [preorderAll, ih]

theorem mem_preorder_self (e : Element) : e ∈ e.preorder := by
  rw [preorder_eq]
  exact List.mem_cons_self

mutual

/-- The children of an element of a tree are elements of the tree. -/
theorem mem_preorder_of_mem_children :
    ∀ {root : Element}, e ∈ root.preorder → c ∈ e.children → c ∈ root.preorder
  | ⟨_, _, _, children, _⟩, he, hc => by
    rcases List.mem_cons.mp he with rfl | he
    · exact List.mem_cons_of_mem _ (mem_preorderAll.mpr ⟨c, hc, mem_preorder_self c⟩)
    · exact List.mem_cons_of_mem _ (mem_preorderAll_of_mem_children he hc)

theorem mem_preorderAll_of_mem_children :
    ∀ {es : List Element}, e ∈ preorderAll es → c ∈ e.children → c ∈ preorderAll es
  | _ :: _, he, hc => by
    rcases List.mem_append.mp he with he | he
    · exact List.mem_append_left _ (mem_preorder_of_mem_children he hc)
    · exact List.mem_append_right _ (mem_preorderAll_of_mem_children he hc)

end

theorem follow?_mem {names : List String} (he : e ∈ root.preorder) (hc : e.follow? names = some c) :
    c ∈ root.preorder := by
  induction names generalizing e with
  | nil => exact Option.some.inj hc ▸ he
  | cons name names ih =>
    obtain ⟨child, hchild, hc⟩ := Option.bind_eq_some_iff.mp hc
    exact ih (mem_preorder_of_mem_children he (List.mem_of_find?_eq_some hchild)) hc

/-- The names that are followed are names of elements. -/
theorem exists_of_mem_followed {names : List String} (he : e ∈ root.preorder)
    (hc : e.follow? names = some c) : ∀ name ∈ names, ∃ t ∈ root.preorder, t.name = name := by
  induction names generalizing e with
  | nil => exact nofun
  | cons first rest ih =>
    obtain ⟨child, hchild, hc⟩ := Option.bind_eq_some_iff.mp hc
    have hmem := mem_preorder_of_mem_children he (List.mem_of_find?_eq_some hchild)
    intro name hname
    rcases List.mem_cons.mp hname with rfl | hname
    · have hname := List.find?_some hchild
      exact ⟨child, hmem, of_decide_eq_true hname⟩
    · exact ih hmem hc name hname

end Element

namespace Document

variable {d : Document} {e g nodeDef : Element}

/-- What a path leads to is an element of the document. -/
theorem mem_of_element? {path : String} (h : d.element? path = some e) : e ∈ d.root.preorder := by
  obtain ⟨-, h⟩ := Option.ite_none_left_eq_some.mp h
  exact Element.follow?_mem (Element.mem_preorder_self d.root) h

/-- A character that is in no name is in no path that leads to an element, but for the slash. -/
theorem not_mem_of_element? {path : String} {c : Char} (h : d.element? path = some e)
    (hc : c ≠ '/') (hnames : ∀ e ∈ d.root.preorder, c ∉ e.name.toList) : c ∉ path.toList := by
  intro hmem
  obtain ⟨-, h⟩ := Option.ite_none_left_eq_some.mp h
  obtain ⟨part, hpart, hmem⟩ := Text.exists_mem_splitOn hmem hc
  have hne : part ≠ [] := List.ne_nil_of_mem hmem
  have hname : String.ofList part ∈ Element.namesOf path :=
    List.mem_map_of_mem (List.mem_filter.mpr ⟨hpart, decide_eq_true hne⟩)
  obtain ⟨t, ht, heq⟩ :=
    Element.exists_of_mem_followed (Element.mem_preorder_self d.root) h _ hname
  refine hnames t ht ?_
  rw [heq, String.toList_ofList]
  exact hmem

theorem mem_of_mem_nodeGraphs (h : g ∈ d.nodeGraphs) : g ∈ d.root.preorder :=
  Element.mem_preorder_of_mem_children (Element.mem_preorder_self d.root) (List.mem_filter.mp h).1

/-! ## Definitions -/

theorem mem_nodeDefs_of_node (h : d.nodeDefOfNode? e = some nodeDef) : nodeDef ∈ d.nodeDefs := by
  unfold nodeDefOfNode? at h
  split at h
  · exact List.mem_of_find?_eq_some h
  · have hmem : nodeDef ∈ d.nodeDefsFor e.category := by
      rcases Option.or_eq_some_iff.mp h with hfound | ⟨-, hfirst⟩
      · exact List.mem_of_find?_eq_some hfound
      · exact List.mem_of_mem_head? hfirst
    exact (List.mem_filter.mp hmem).1

theorem mem_nodeDefs_of_shaderRef (h : d.nodeDefOfShaderRef? e = some nodeDef) :
    nodeDef ∈ d.nodeDefs := by
  unfold nodeDefOfShaderRef? at h
  split at h
  · exact List.mem_of_find?_eq_some h
  · obtain ⟨category, -, hfirst⟩ := Option.bind_eq_some_iff.mp h
    exact (List.mem_filter.mp (List.mem_of_mem_head? hfirst)).1

end Document

end MaterialViewer
