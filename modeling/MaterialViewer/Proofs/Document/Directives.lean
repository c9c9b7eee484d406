import Mathlib.Data.List.Basic
import MaterialViewer.Proofs.Document.Assembly

/-!
# Proofs: the files that a document asks for

A directive, a tag named `xi:include`, asks for a file and is no element. Written as one tag it is
recognized at any depth. Written as two tags it is an element like any other, so the files are
those of the directives in the first form, and no directive is left in the tree exactly if each has
this form.
-/

namespace MaterialViewer

namespace Markup

/-- The tag of a directive that is one tag. -/
def Event.directive? : Event → Option Tag
  | .empty tag => if tag.name = includeTag then some tag else none
  | _ => none

/-- The tag that begins an element. -/
def Event.elementTag? : Event → Option Tag
  | .opening tag => some tag
  | .empty tag => if tag.name = includeTag then none else some tag
  | _ => none

/-- The file that a tag asks for. -/
def Tag.href? (tag : Tag) : Option String := (Ordered.get? "href" tag.attributes).filter (· ≠ "")

/-- The files that all directives of a sequence of events ask for, in order. -/
def requestedBy (events : List Event) : List String :=
  ((tagsOf events).filter (·.name = includeTag)).filterMap Tag.href?

theorem Tag.filled?_ofTag (tag : Tag) : (Element.ofTag tag).filled? "href" = tag.href? :=
  congrArg (Option.filter (· ≠ "")) (Ordered.get?_erase_of_ne (by decide) tag.attributes)

end Markup

open Markup

namespace Element

theorem preorderAll_append (es more : List Element) :
    preorderAll (es ++ more) = preorderAll es ++ preorderAll more := by
  induction es with
  | nil => rfl
  | cons e es ih => rw [List.cons_append, preorderAll, preorderAll, ih, List.append_assoc]

theorem categories_addChild (e child : Element) :
    (e.addChild child).preorder.map (·.category) =
      e.preorder.map (·.category) ++ child.preorder.map (·.category) := by
  rw [preorder_eq, preorder_eq e, addChild, preorderAll_append, preorderAll, preorderAll,
    List.append_nil, List.map_cons, List.map_cons, List.map_append, List.cons_append]

theorem categories_ofTag (tag : Tag) : (ofTag tag).preorder.map (·.category) = [tag.name] := by
  rw [preorder_eq]
  rfl

end Element

namespace Assembly

variable {a a' : Assembly} {e : Element} {outer : List Element} {event : Event}
  {events : List Event}

/-- The categories of the elements so far, those of the outer elements first. -/
def categories (a : Assembly) : List String :=
  (Element.preorderAll (a.root?.toList ++ a.opened.reverse)).map (·.category)

theorem categories_close (hroom : a.HasRoom) :
    (a.close e).categories = a.categories ++ e.preorder.map (·.category) := by
  unfold close categories
  cases hopened : a.opened with
  | nil =>
    rw [hroom hopened]
    simp [Element.preorderAll]
  | cons parent outer =>
    simp only [List.reverse_cons, Element.preorderAll_append, List.map_append, Element.preorderAll,
      Element.categories_addChild, List.append_assoc, List.append_nil]

theorem categories_opened (hopened : a.opened = e :: outer) :
    a.categories = { a with opened := outer }.categories ++ e.preorder.map (·.category) := by
  unfold categories
  rw [hopened, List.reverse_cons, ← List.append_assoc, Element.preorderAll_append, List.map_append,
    Element.preorderAll, Element.preorderAll, List.append_nil]

/-- An event adds the element that its tag begins. -/
theorem Stepped.adds (h : Stepped a event a') (ha : a.IsPending) :
    a'.categories = a.categories ++ (event.elementTag?.map (·.name)).toList := by
  cases h with
  | silent hsilent =>
    cases event <;> first | exact (List.append_nil _).symm | cases hsilent
  | @directive tag htag =>
    rw [Event.elementTag?, if_pos htag]
    exact (List.append_nil _).symm
  | @leaf tag htag hroom =>
    rw [categories_close hroom, Element.categories_ofTag, Event.elementTag?, if_neg htag]
    rfl
  | @opens tag _ =>
    rw [categories_opened (e := Element.ofTag tag) rfl, Element.categories_ofTag]
    rfl
  | @closes e outer hopened =>
    have hroot : a.root? = none := ha (by rw [hopened]; exact List.cons_ne_nil _ _)
    rw [categories_close (a := { a with opened := outer }) fun _ => hroot,
      ← categories_opened hopened]
    exact (List.append_nil _).symm

/-- An event adds the file that its directive asks for, if the directive is one tag. -/
theorem Stepped.requests (h : Stepped a event a') :
    a'.includes = a.includes ++ (event.directive?.bind Tag.href?).toList := by
  cases h with
  | silent hsilent =>
    cases event <;> first | exact (List.append_nil _).symm | cases hsilent
  | @directive tag htag =>
    rw [Event.directive?, if_pos htag, Tag.filled?_ofTag]
    rfl
  | @leaf tag htag _ =>
    rw [includes_close, Event.directive?, if_neg htag]
    exact (List.append_nil _).symm
  | opens _ => exact (List.append_nil _).symm
  | closes _ =>
    rw [includes_close]
    exact (List.append_nil _).symm

/-- What is known after reading some events. -/
structure Counts (events : List Event) (a : Assembly) : Prop where
  pending : a.IsPending
  categories : a.categories = (events.filterMap Event.elementTag?).map (·.name)
  includes : a.includes = (events.filterMap Event.directive?).filterMap Tag.href?

theorem Counts.step (ha : Counts events a) (h : Stepped a event a') :
    Counts (events ++ [event]) a' where
  pending := ha.pending.step h
  categories := by
    rw [h.adds ha.pending, ha.categories, List.filterMap_append, List.map_append]
    cases hevent : event.elementTag? <;> simp [hevent]
  includes := by
    rw [h.requests, ha.includes, List.filterMap_append, List.filterMap_append]
    cases hevent : event.directive? with
    | none => simp [hevent]
    | some tag => cases htag : tag.href? <;> simp [hevent, htag]

theorem counts_of_run (h : events.foldlM step {} = .ok a) : Counts events a := by
  have hempty : Counts [] {} := ⟨fun _ => rfl, rfl, rfl⟩
  exact run_induction (P := Counts) Counts.step [] hempty h

end Assembly

/-- Where no directive is two tags, the directives that are one tag are all. -/
theorem requestedBy_eq {events : List Event}
    (h : ∀ tag, .opening tag ∈ events → tag.name ≠ includeTag) :
    requestedBy events = (events.filterMap Event.directive?).filterMap Tag.href? := by
  unfold requestedBy tagsOf
  rw [List.filter_filterMap]
  refine congrArg _ (List.filterMap_congr fun event hevent => ?_)
  cases event with
  | opening tag => exact Option.filter_some_neg (by simpa using h tag hevent)
  | empty tag =>
    rw [Event.tag?, Event.directive?, Option.filter_some]
    simp only [decide_eq_true_eq]
  | _ => rfl

/-- Of a document that is read, the files asked for are those of the directives that are one tag,
and the elements are those that the other tags begin. All directives are recognized exactly if none
of them is two tags. -/
theorem Element.ofEvents_recognizes_iff {events : List Event} {root : Element}
    {includes : List String} (h : ofEvents events = .ok (root, includes)) :
    includes = (events.filterMap Event.directive?).filterMap Tag.href? ∧
    root.preorder.map (·.category) = (events.filterMap Event.elementTag?).map (·.name) ∧
    ((includes = requestedBy events ∧ ∀ e ∈ root.preorder, e.category ≠ includeTag) ↔
      ∀ tag, .opening tag ∈ events → tag.name ≠ includeTag) := by
  have hcounts := Assembly.counts_of_run (ofEvents_ok_iff.mp h).1
  have hincludes : includes = (events.filterMap Event.directive?).filterMap Tag.href? :=
    hcounts.includes
  have hcategories : root.preorder.map (·.category) =
      (events.filterMap Event.elementTag?).map (·.name) := by
    rw [← hcounts.categories, Assembly.categories]
    simp [preorderAll]
  have hmem : ∀ name, name ∈ root.preorder.map (·.category) ↔
      ∃ event ∈ events, ∃ tag, event.elementTag? = some tag ∧ tag.name = name := by
    intro name
    rw [hcategories, List.mem_map]
    simp only [List.mem_filterMap]
    exact ⟨fun ⟨tag, ⟨event, hevent, htag⟩, hname⟩ => ⟨event, hevent, tag, htag, hname⟩,
      fun ⟨event, hevent, tag, htag, hname⟩ => ⟨tag, ⟨event, hevent, htag⟩, hname⟩⟩
  refine ⟨hincludes, hcategories, ?_, ?_⟩
  · rintro ⟨-, hnone⟩ tag htag hname
    obtain ⟨e, he, hcategory⟩ := List.mem_map.mp ((hmem includeTag).mpr ⟨_, htag, tag, rfl, hname⟩)
    exact hnone e he hcategory
  · intro hone
    refine ⟨hincludes.trans (requestedBy_eq hone).symm, fun e he hcategory => ?_⟩
    obtain ⟨event, hevent, tag, htag, hname⟩ :=
      (hmem includeTag).mp (List.mem_map.mpr ⟨e, he, hcategory⟩)
    cases event with
    | opening opened =>
      cases htag
      exact hone tag hevent hname
    | empty closed =>
      rw [Event.elementTag?] at htag
      split at htag
      · cases htag
      next hne =>
        cases htag
        exact hne hname
    | _ => cases htag

/-- The events of a document that asks for `inc.mtlx`, in one tag or in two. -/
def requestingEvents (directive : Tag → List Event) : List Event :=
  .opening ⟨Document.rootCategory, []⟩ ::
    (directive ⟨includeTag, [("href", "inc.mtlx")]⟩ ++ [.closing])

theorem Element.ofEvents_recognizes_iff_oneTag :
    ofEvents (requestingEvents fun tag => [.empty tag]) =
      .ok ({ category := Document.rootCategory, name := "" }, ["inc.mtlx"]) ∧
    requestedBy (requestingEvents fun tag => [.empty tag]) = ["inc.mtlx"] := by
  have hread : ofEvents (requestingEvents fun tag => [.empty tag]) =
      .ok ({ category := Document.rootCategory, name := "" }, ["inc.mtlx"]) := rfl
  have hone : ∀ tag, .opening tag ∈ requestingEvents (fun tag => [.empty tag]) →
      tag.name ≠ includeTag := by
    intro tag htag
    simp only [requestingEvents, List.singleton_append, List.mem_cons, Event.opening.injEq,
      reduceCtorEq, List.not_mem_nil, or_false] at htag
    rw [htag]
    decide
  exact ⟨hread, ((ofEvents_recognizes_iff hread).2.2.mpr hone).1.symm⟩

/-- A directive that is two tags is overlooked: the file is not asked for, and the directive is left
in the tree. -/
theorem Element.not_recognizes_twoTags : ∃ root includes,
    ofEvents (requestingEvents fun tag => [.opening tag, .closing]) = .ok (root, includes) ∧
    requestedBy (requestingEvents fun tag => [.opening tag, .closing]) = ["inc.mtlx"] ∧
    includes = [] ∧ ∃ e ∈ root.preorder, e.category = includeTag := by
  refine ⟨_, _, rfl, by decide, rfl, ?_⟩
  decide

end MaterialViewer
