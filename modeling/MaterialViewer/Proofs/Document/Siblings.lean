import MaterialViewer.Proofs.Document.Path
import MaterialViewer.Proofs.Text.Split

/-!
# Proofs: siblings with names of their own

Where siblings have different names, none of them empty and none with a slash, the path that is
joined from the names of elements leads back to them, and a change that is asked for by name
concerns one sibling and no other.
-/

namespace MaterialViewer

namespace Element

variable {e : Element} {es : List Element}

/-- Siblings with names of their own, of which paths can be made. -/
structure Distinct (es : List Element) : Prop where
  nodup : (es.map (·.name)).Nodup
  named : ∀ e ∈ es, e.name ≠ ""
  plain : ∀ e ∈ es, '/' ∉ e.name.toList

theorem Distinct.filter (h : Distinct es) (p : Element → Bool) : Distinct (es.filter p) where
  nodup := h.nodup.sublist (List.filter_sublist.map _)
  named e he := h.named e (List.mem_filter.mp he).1
  plain e he := h.plain e (List.mem_filter.mp he).1

/-- Whether siblings have names of their own is a matter of their names. -/
theorem Distinct.of_names {es' : List Element} (h : Distinct es)
    (hnames : es'.map (·.name) = es.map (·.name)) : Distinct es' := by
  have hsame : ∀ e' ∈ es', ∃ e ∈ es, e.name = e'.name := by
    intro e' he'
    have hmem : e'.name ∈ es'.map (·.name) := List.mem_map_of_mem he'
    rw [hnames] at hmem
    exact List.mem_map.mp hmem
  refine ⟨hnames ▸ h.nodup, fun e' he' => ?_, fun e' he' => ?_⟩
  · obtain ⟨e, he, hname⟩ := hsame e' he'
    exact hname ▸ h.named e he
  · obtain ⟨e, he, hname⟩ := hsame e' he'
    exact hname ▸ h.plain e he

theorem find?_name (h : (es.map (·.name)).Nodup) (he : e ∈ es) :
    es.find? (·.name = e.name) = some e := by
  induction es with
  | nil => cases he
  | cons first rest ih =>
    obtain ⟨hnew, hrest⟩ := List.nodup_cons.mp h
    rcases List.mem_cons.mp he with rfl | he
    · exact List.find?_cons_of_pos (by simp)
    · have hne : first.name ≠ e.name := by
        intro heq
        exact hnew (List.mem_map.mpr ⟨e, he, heq.symm⟩)
      rw [List.find?_cons_of_neg (by simpa using hne), ih hrest he]

/-! ## Paths made of names -/

theorem toList_ne_nil {s : String} (h : s ≠ "") : s.toList ≠ [] := fun hnil =>
  h (String.toList_inj.mp (by rw [hnil]; rfl))

theorem namesOf_single {name : String} (hname : '/' ∉ name.toList) (hne : name ≠ "") :
    namesOf name = [name] := by
  rw [namesOf, Text.splitOn_of_not_mem hname]
  simp [toList_ne_nil hne, String.ofList_toList]

/-- The path from a parent to its child is made of their two names. -/
theorem namesOf_pair {parent name : String} (hparent : '/' ∉ parent.toList) (hne : parent ≠ "")
    (hname : '/' ∉ name.toList) (hne' : name ≠ "") :
    namesOf (parent ++ "/" ++ name) = [parent, name] := by
  have htext : (parent ++ "/" ++ name).toList = parent.toList ++ '/' :: name.toList := by
    simp [String.toList_append]
  rw [namesOf, htext, Text.splitOn_append hparent, Text.splitOn_of_not_mem hname]
  simp [toList_ne_nil hne, toList_ne_nil hne', String.ofList_toList]

theorem namesOf_append (front back : String) :
    namesOf (front ++ "/" ++ back) = namesOf front ++ namesOf back := by
  have htext : (front ++ "/" ++ back).toList = front.toList ++ '/' :: back.toList := by
    simp [String.toList_append]
  rw [namesOf, htext, Text.splitOn_append_splitOn, List.filter_append, List.map_append]
  rfl

theorem follow?_append (front back : List String) :
    e.follow? (front ++ back) = (e.follow? front).bind (·.follow? back) := by
  induction front generalizing e with
  | nil => rfl
  | cons name front ih =>
    rw [List.cons_append, follow?, follow?]
    cases e.child? name with
    | none => rfl
    | some child => exact ih

theorem child?_name {child : Element} {name : String} (h : e.child? name = some child) :
    child.name = name := by
  simpa using List.find?_some h

theorem follow?_single (e : Element) (name : String) : e.follow? [name] = e.child? name := by
  rw [follow?]
  cases e.child? name <;> rfl

/-- A name is the last one of every path that it was joined to. -/
theorem descendant?_joinPath {name : String} (hname : '/' ∉ name.toList) (hne : name ≠ "")
    (parent : String) :
    e.descendant? (joinPath parent name) = (e.descendant? parent).bind (·.child? name) := by
  unfold descendant? joinPath
  by_cases hparent : parent = ""
  · rw [if_pos hparent, hparent, namesOf_single hname hne, follow?_single]
    rfl
  · rw [if_neg hparent, namesOf_append, follow?_append, namesOf_single hname hne]
    simp only [follow?_single]

/-! ## Changes by name -/

theorem replaceFirst?_append {p : Element → Bool} {f : Element → Option Element}
    {front back : List Element} (hfront : ∀ x ∈ front, p x = false) (he : p e = true) :
    replaceFirst? p f (front ++ e :: back) = (f e).map (front ++ · :: back) := by
  induction front with
  | nil => rw [List.nil_append, replaceFirst?, if_pos he]; rfl
  | cons x front ih =>
    have hx : ¬ p x = true := by simp [hfront x List.mem_cons_self]
    rw [List.cons_append, replaceFirst?, if_neg hx,
      ih fun y hy => hfront y (List.mem_cons_of_mem x hy), Option.map_map]
    rfl

section Changes

/-!
Changes of siblings are asked for by name: `step` finds the sibling with the name and changes it by
`change`, which keeps the name.
-/

variable {β : Type} {change : Element → β → Element} {step : List Element → String × β → List Element}

theorem name_foldl_change (hname : ∀ e b, (change e b).name = e.name) (bs : List β) (e : Element) :
    (bs.foldl change e).name = e.name := by
  induction bs generalizing e with
  | nil => rfl
  | cons b bs ih => rw [List.foldl_cons, ih, hname]

/-- The changes of one sibling leave the others as they are. -/
theorem foldl_changes_of_one (hname : ∀ e b, (change e b).name = e.name)
    (hstep : ∀ front e back b, (∀ x ∈ front, x.name ≠ e.name) →
      step (front ++ e :: back) (e.name, b) = front ++ change e b :: back)
    {front : List Element} (back : List Element) (bs : List β) (e : Element)
    (hfront : ∀ x ∈ front, x.name ≠ e.name) :
    (bs.map (e.name, ·)).foldl step (front ++ e :: back) =
      front ++ bs.foldl change e :: back := by
  induction bs generalizing e with
  | nil => rfl
  | cons b bs ih =>
    have hrest := ih (change e b) (by rwa [hname])
    rw [hname] at hrest
    rw [List.map_cons, List.foldl_cons, hstep front e back b hfront, hrest, List.foldl_cons]

/-- Changes that are asked for by name, sibling after sibling, come to a change of each sibling. -/
theorem foldl_changes (change : Element → β → Element) (hname : ∀ e b, (change e b).name = e.name)
    (hstep : ∀ front e back b, (∀ x ∈ front, x.name ≠ e.name) →
      step (front ++ e :: back) (e.name, b) = front ++ change e b :: back)
    (changes : Element → List β) {es : List Element} (hnodup : (es.map (·.name)).Nodup) :
    (es.flatMap fun e => (changes e).map (e.name, ·)).foldl step es =
      es.map fun e => (changes e).foldl change e := by
  -- those in front have been changed already, and have kept their names
  suffices h : ∀ front : List Element, ((front ++ es).map (·.name)).Nodup →
      (es.flatMap fun e => (changes e).map (e.name, ·)).foldl step (front ++ es) =
        front ++ es.map fun e => (changes e).foldl change e from h [] hnodup
  clear hnodup
  induction es with
  | nil => exact fun front _ => rfl
  | cons e es ih =>
    intro front hnodup
    have hfront : ∀ x ∈ front, x.name ≠ e.name := by
      intro x hx heq
      rw [List.map_append, List.nodup_append] at hnodup
      exact hnodup.2.2 x.name (List.mem_map_of_mem hx) e.name (by simp) heq
    have hrest := ih (front ++ [(changes e).foldl change e])
      (by simpa [List.map_append, name_foldl_change hname] using hnodup)
    simp only [List.append_assoc, List.singleton_append] at hrest
    rw [List.flatMap_cons, List.foldl_append,
      foldl_changes_of_one hname hstep es (changes e) e hfront, hrest, List.map_cons]

end Changes

end Element

namespace Document

variable {d : Document} {e : Element}

/-- All siblings in the document have names of their own. -/
def WellNamed (d : Document) : Prop := ∀ e ∈ d.root.preorder, Element.Distinct e.children

theorem WellNamed.top (h : d.WellNamed) : Element.Distinct d.root.children :=
  h d.root (Element.mem_preorder_self d.root)

theorem WellNamed.children (h : d.WellNamed) (he : e ∈ d.root.children) :
    Element.Distinct e.children :=
  h e (Element.mem_preorder_of_mem_children (Element.mem_preorder_self d.root) he)

/-- The name of an element at the top leads to it. -/
theorem element?_of_mem (h : Element.Distinct d.root.children) (he : e ∈ d.root.children) :
    d.element? e.name = some e := by
  rw [element?, if_neg (h.named e he), Element.descendant?,
    Element.namesOf_single (h.plain e he) (h.named e he)]
  simp only [Element.follow?, Element.child?, Element.find?_name h.nodup he, Option.bind_some]

end Document

end MaterialViewer
