import Mathlib.Data.List.Nodup
import MaterialViewer.Proofs.Document.Assembly
import MaterialViewer.Proofs.Document.Path

/-!
# Proofs: reading inverts writing

A tree of elements can be written as many sequences of events: blanks and comments may stand
anywhere, an element without children is one tag or two, and its name stands anywhere among its
attributes. Each of them is read as that tree, and a sequence that writes no single tree is refused.

Reading is an assembly with a stack, so each direction has its own induction. What writes elements
is followed by induction on the writing, which tells the stack from the elements. What has been read
is followed event by event: the stack always holds what the events so far write.
-/

namespace MaterialViewer

namespace Markup

/-- A tag that is no directive, with different keys. -/
structure Tag.IsPlain (tag : Tag) : Prop where
  name_ne : tag.name ≠ includeTag
  keys : (tag.attributes.map (·.1)).Nodup

/-- A tag writes the category, the name and the attributes of an element. An empty name may be left
out. Not every element has a tag: an attribute called `name` would be read as the name, and the file
from which an element was imported cannot be written. -/
structure Tag.Writes (tag : Tag) (e : Element) : Prop where
  category : tag.name = e.category
  attributes : (e.name = "" ∧ tag.attributes = e.attributes) ∨
    ∃ before after, tag.attributes = before ++ ("name", e.name) :: after ∧
      e.attributes = before ++ after
  unnamed : e.attribute? "name" = none
  own : e.sourceUri = none

/-- The sequences of events that write elements, one after the other. -/
inductive Writes : List Event → List Element → Prop
  | nil : Writes [] []
  /-- Comments and blanks may stand anywhere. -/
  | silent {event : Event} {events : List Event} {es : List Element} (hsilent : event.IsSilent)
    (rest : Writes events es) : Writes (event :: events) es
  /-- An element without children may be one tag. -/
  | leaf {tag : Tag} {e : Element} {events : List Event} {es : List Element} (htag : tag.Writes e)
    (hleaf : e.children = []) (rest : Writes events es) : Writes (.empty tag :: events) (e :: es)
  /-- Every element may be two tags with its children between them. -/
  | element {tag : Tag} {e : Element} {inside events : List Event} {es : List Element}
    (htag : tag.Writes e) (inner : Writes inside e.children) (rest : Writes events es) :
    Writes (.opening tag :: (inside ++ .closing :: events)) (e :: es)

variable {tag : Tag} {event : Event} {events more : List Event} {e : Element}
  {es es' : List Element}

/-! ## What is written -/

/-- The categories of all elements are the names of the tags that write them. -/
theorem Writes.categories (h : Writes events es) :
    (Element.preorderAll es).map (·.category) = (tagsOf events).map (·.name) := by
  unfold tagsOf
  induction h with
  | nil => rfl
  | silent hsilent _ ih => rw [List.filterMap_cons_none hsilent.tag?_eq, ih]
  | @leaf tag e events es htag hleaf _ ih =>
    have htags : (Event.empty tag :: events).filterMap Event.tag? =
        tag :: events.filterMap Event.tag? := rfl
    rw [htags, List.map_cons, ← ih, Element.preorderAll, Element.preorder_eq, hleaf, htag.category]
    rfl
  | @element tag e inside events es htag _ _ ihinner ihrest =>
    have htags : (Event.opening tag :: (inside ++ .closing :: events)).filterMap Event.tag? =
        tag :: (inside.filterMap Event.tag? ++ events.filterMap Event.tag?) :=
      congrArg (tag :: ·) List.filterMap_append
    rw [htags, List.map_cons, List.map_append, ← ihinner, ← ihrest, Element.preorderAll,
      Element.preorder_eq, htag.category, List.map_append, List.map_cons, List.cons_append]

/-- What tags write that are no directives is none. -/
theorem Writes.ordinary (h : Writes events [e])
    (hordinary : ∀ tag ∈ tagsOf events, tag.name ≠ includeTag) :
    ∀ c ∈ e.preorder, c.category ≠ includeTag := by
  intro c hc
  have hcategory : c.category ∈ (tagsOf events).map (·.name) := by
    rw [← h.categories]
    exact List.mem_map_of_mem (Element.mem_preorderAll.mpr ⟨e, List.mem_singleton_self e, hc⟩)
  obtain ⟨tag, htag, hname⟩ := List.mem_map.mp hcategory
  exact hname ▸ hordinary tag htag

theorem Writes.append (h : Writes events es) (hmore : Writes more es') :
    Writes (events ++ more) (es ++ es') := by
  induction h with
  | nil => exact hmore
  | silent hsilent _ ih => exact .silent hsilent ih
  | leaf htag hleaf _ ih => exact .leaf htag hleaf ih
  | element htag inner _ _ ih =>
    rw [List.cons_append, List.append_assoc, List.cons_append, List.cons_append]
    exact .element htag inner ih

/-! ## Tags and elements -/

theorem Tag.Writes.ofTag_eq (h : tag.Writes e) : Element.ofTag tag = { e with children := [] } := by
  have hnone : Ordered.get? "name" e.attributes = none := h.unnamed
  suffices hread : (Ordered.get? "name" tag.attributes).getD "" = e.name ∧
      Ordered.erase "name" tag.attributes = e.attributes by
    have hown : none = e.sourceUri := h.own.symm
    unfold Element.ofTag
    rw [hread.1, ← hread.2, h.category, ← hown]
    rfl
  rcases h.attributes with ⟨hname, htag⟩ | ⟨before, after, htag, hattributes⟩
  · rw [htag, hnone, hname]
    exact ⟨rfl, Ordered.erase_of_get?_eq_none hnone⟩
  · rw [hattributes, Ordered.get?_append, Option.or_eq_none_iff] at hnone
    rw [htag, hattributes]
    constructor
    · rw [Ordered.get?_append, hnone.1, Option.none_or, Ordered.get?, if_pos rfl]
      rfl
    · unfold Ordered.erase
      rw [List.filter_append, List.filter_cons_of_neg (by simp)]
      exact congr (congrArg _ (Ordered.erase_of_get?_eq_none hnone.1))
        (Ordered.erase_of_get?_eq_none hnone.2)

/-- A tag with different keys writes the element that is read from it. -/
theorem Tag.writes_ofTag (hkeys : (tag.attributes.map (·.1)).Nodup) :
    tag.Writes (Element.ofTag tag) where
  category := rfl
  unnamed := Ordered.get?_erase_self "name" tag.attributes
  own := rfl
  attributes := by
    have hattributes : (Element.ofTag tag).attributes = Ordered.erase "name" tag.attributes := rfl
    rw [hattributes]
    cases hname : Ordered.get? "name" tag.attributes with
    | none =>
      refine .inl ⟨?_, (Ordered.erase_of_get?_eq_none hname).symm⟩
      unfold Element.ofTag
      rw [hname]
      rfl
    | some name =>
      obtain ⟨before, after, hsplit⟩ := List.append_of_mem (Ordered.mem_of_get? hname)
      refine .inr ⟨before, after, ?_, ?_⟩
      · unfold Element.ofTag
        rw [hname]
        exact hsplit
      · -- The other keys are different from this one.
        rw [hsplit, List.map_append, List.map_cons, List.nodup_middle, List.nodup_cons,
          List.mem_append, not_or] at hkeys
        rw [hsplit]
        unfold Ordered.erase
        rw [List.filter_append, List.filter_cons_of_neg (by simp)]
        exact congr (congrArg _
          (Ordered.erase_of_get?_eq_none (Ordered.get?_eq_none_iff.mpr hkeys.1.1)))
          (Ordered.erase_of_get?_eq_none (Ordered.get?_eq_none_iff.mpr hkeys.1.2))

end Markup

namespace Assembly

open Markup

variable {a a' : Assembly} {root? : Option Element} {e : Element} {es outer : List Element}
  {tag : Tag} {event : Event} {events more : List Event}

/-! ## What is written is read -/

/-- Elements that are closed one after the other become the last children of the open element. -/
theorem foldl_close (h : a.opened = e :: outer) : es.foldl close a =
    { a with opened := { e with children := e.children ++ es } :: outer } := by
  induction es generalizing a e with
  | nil =>
    obtain ⟨root?, opened, includes⟩ := a
    cases e
    rw [List.append_nil, ← h]
    rfl
  | cons c es ih =>
    have hclose : a.close c = { a with opened := e.addChild c :: outer } := by
      unfold close
      rw [h]
    rw [List.foldl_cons, hclose, ih rfl, Element.addChild, List.append_assoc, List.singleton_append]

/-- At the top there is room for one element in all. -/
def TakesIn (a : Assembly) (es : List Element) : Prop :=
  a.opened = [] → (a.root?.toList ++ es).length ≤ 1

theorem TakesIn.hasRoom (h : a.TakesIn (e :: es)) : a.HasRoom := by
  intro htop
  have hlength := h htop
  cases hroot : a.root? with
  | none => rfl
  | some root =>
    rw [hroot, Option.toList_some, List.singleton_append, List.length_cons, List.length_cons]
      at hlength
    omega

theorem TakesIn.close (h : a.TakesIn (e :: es)) : (a.close e).TakesIn es := by
  intro htop
  unfold Assembly.close at htop ⊢
  cases hopened : a.opened with
  | cons parent outer =>
    rw [hopened] at htop
    cases htop
  | nil =>
    have hlength := h hopened
    rw [h.hasRoom hopened] at hlength
    exact hlength

/-- What writes elements is read as these elements, closed one after the other. -/
theorem run_of_writes (h : Writes events es)
    (hdirectives : ∀ e ∈ Element.preorderAll es, e.category ≠ includeTag) (hroom : a.TakesIn es) :
    events.foldlM step a = .ok (es.foldl close a) := by
  induction h generalizing a with
  | nil => rfl
  | silent hsilent _ ih => exact run_cons_ok_iff.mpr ⟨a, .silent hsilent, ih hdirectives hroom⟩
  | @leaf tag e events es htag hleaf _ ih =>
    rw [Element.preorderAll, List.forall_mem_append] at hdirectives
    have he : Element.ofTag tag = e := by
      rw [htag.ofTag_eq, ← hleaf]
      cases e
      rfl
    have hne : tag.name ≠ includeTag :=
      htag.category ▸ hdirectives.1 e (Element.mem_preorder_self e)
    refine run_cons_ok_iff.mpr ⟨a.close e, ?_, ih hdirectives.2 hroom.close⟩
    rw [← he]
    exact .leaf hne hroom.hasRoom
  | @element tag e inside events es htag _ _ ihinner ihrest =>
    rw [Element.preorderAll, List.forall_mem_append, Element.preorder_eq,
      List.forall_mem_cons] at hdirectives
    have hinside : inside.foldlM step { a with opened := Element.ofTag tag :: a.opened } =
        .ok { a with opened := e :: a.opened } := by
      rw [ihinner hdirectives.1.2 (fun htop => absurd htop (List.cons_ne_nil _ _)), foldl_close rfl,
        htag.ofTag_eq]
      cases e
      rfl
    have hrest : (.closing :: events).foldlM step { a with opened := e :: a.opened } =
        .ok (es.foldl close (a.close e)) :=
      run_cons_ok_iff.mpr ⟨a.close e, .closes rfl, ihrest hdirectives.2 hroom.close⟩
    refine run_cons_ok_iff.mpr ⟨_, .opens hroom.hasRoom, ?_⟩
    rw [List.foldlM_append, hinside]
    exact hrest

/-! ## What is read was written -/

/-- The events so far write the finished root, and each open element with its children so far but
for its end. -/
inductive HasRead (root? : Option Element) : List Event → List Element → Prop
  | top {events : List Event} (h : Writes events root?.toList) : HasRead root? events []
  | inside {tag : Tag} {e : Element} {outer : List Element} {before inner : List Event}
    (hbefore : HasRead root? before outer) (htag : tag.Writes e)
    (hinner : Writes inner e.children) :
    HasRead root? (before ++ .opening tag :: inner) (e :: outer)

theorem HasRead.silent (h : HasRead root? events outer) (hsilent : event.IsSilent) :
    HasRead root? (events ++ [event]) outer := by
  have hevent : Writes [event] [] := .silent hsilent .nil
  cases h with
  | top h =>
    have hmore := h.append hevent
    rw [List.append_nil] at hmore
    exact .top hmore
  | inside hbefore htag hinner =>
    have hmore := hinner.append hevent
    rw [List.append_nil] at hmore
    rw [List.append_assoc]
    exact .inside hbefore htag hmore

theorem HasRead.close (h : HasRead a.root? events a.opened) (hroom : a.HasRoom)
    (he : Writes more [e]) : HasRead (a.close e).root? (events ++ more) (a.close e).opened := by
  unfold Assembly.close
  cases hopened : a.opened with
  | nil =>
    rw [hopened, hroom hopened] at h
    cases h with
    | top h => exact .top (h.append he)
  | cons parent outer =>
    rw [hopened] at h
    cases h with
    | inside hbefore htag hinner =>
      rw [List.append_assoc]
      exact .inside hbefore ⟨htag.category, htag.attributes, htag.unnamed, htag.own⟩
        (hinner.append he)

/-- What is known after reading events without directives. -/
structure Faithful (events : List Event) (a : Assembly) : Prop where
  read : HasRead a.root? events a.opened
  pending : a.IsPending
  includes : a.includes = []

theorem Faithful.step (ha : Faithful events a) (h : Stepped a event a')
    (hplain : ∀ tag ∈ event.tag?, tag.IsPlain) : Faithful (events ++ [event]) a' := by
  refine ⟨?_, ha.pending.step h, ?_⟩
  · cases h with
    | silent hsilent => exact ha.read.silent hsilent
    | directive htag => exact absurd htag (hplain _ rfl).name_ne
    | @leaf tag _ hroom =>
      exact ha.read.close hroom (.leaf (Tag.writes_ofTag (hplain tag rfl).keys) rfl .nil)
    | @opens tag _ => exact .inside ha.read (Tag.writes_ofTag (hplain tag rfl).keys) .nil
    | @closes e outer hopened =>
      have hroot : a.root? = none := ha.pending (by rw [hopened]; exact List.cons_ne_nil _ _)
      have hread := ha.read
      rw [hopened] at hread
      cases hread with
      | @inside tag _ _ before inner hbefore htag hinner =>
        rw [List.append_assoc]
        exact HasRead.close (a := { a with opened := outer }) hbefore (fun _ => hroot)
          (.element htag hinner .nil)
  · cases h with
    | silent _ => exact ha.includes
    | directive htag => exact absurd htag (hplain _ rfl).name_ne
    | leaf _ _ => exact includes_close.trans ha.includes
    | opens _ => exact ha.includes
    | closes _ => exact includes_close.trans ha.includes

theorem faithful_of_run (h : events.foldlM step {} = .ok a)
    (hplain : ∀ tag ∈ tagsOf events, tag.IsPlain) : Faithful events a := by
  have hstep : ∀ {before b event b'},
      ((∀ tag ∈ tagsOf before, tag.IsPlain) → Faithful before b) → Stepped b event b' →
      (∀ tag ∈ tagsOf (before ++ [event]), tag.IsPlain) → Faithful (before ++ [event]) b' := by
    intro before b event b' hb hstep hall
    unfold tagsOf at hall
    rw [List.filterMap_append, List.forall_mem_append] at hall
    refine (hb hall.1).step hstep fun tag htag => hall.2 tag ?_
    exact List.mem_filterMap.mpr ⟨event, List.mem_singleton_self event, htag⟩
  have hempty : (∀ tag ∈ tagsOf [], tag.IsPlain) → Faithful [] {} :=
    fun _ => ⟨.top .nil, fun _ => rfl, rfl⟩
  exact run_induction (P := fun before b => (∀ tag ∈ tagsOf before, tag.IsPlain) →
    Faithful before b) hstep [] hempty h hplain

end Assembly

/-! ## Reading and writing -/

namespace Element

open Markup

variable {root : Element} {includes : List String} {events : List Event}

theorem ofEvents_of_writes (hroot : root.category = Document.rootCategory)
    (hdirectives : ∀ e ∈ root.preorder, e.category ≠ includeTag) (h : Writes events [root]) :
    ofEvents events = .ok (root, []) := by
  have hall : ∀ e ∈ preorderAll [root], e.category ≠ includeTag := by
    rw [preorderAll, preorderAll, List.append_nil]
    exact hdirectives
  have hrun := Assembly.run_of_writes (a := {}) h hall fun _ => Nat.le_refl 1
  exact ofEvents_ok_iff.mpr ⟨hrun, hroot⟩

theorem writes_of_ofEvents (h : ofEvents events = .ok (root, includes))
    (hplain : ∀ tag ∈ tagsOf events, tag.IsPlain) :
    root.category = Document.rootCategory ∧ (∀ e ∈ root.preorder, e.category ≠ includeTag) ∧
      Writes events [root] ∧ includes = [] := by
  obtain ⟨hrun, hroot⟩ := ofEvents_ok_iff.mp h
  have hread := Assembly.faithful_of_run hrun hplain
  cases hread.read with
  | top hwrites =>
    have hordinary : ∀ tag ∈ tagsOf events, tag.name ≠ includeTag :=
      fun tag htag => (hplain tag htag).name_ne
    exact ⟨hroot, hwrites.ordinary hordinary, hwrites, hread.includes⟩

/-- Reading inverts writing: a tree below the root of a document, without directives, is read off
every sequence of events that writes it, and a sequence without directives that writes no such tree
is refused. -/
theorem ofEvents_inverts_writing :
    (∀ root events, root.category = Document.rootCategory →
      (∀ e ∈ root.preorder, e.category ≠ includeTag) → Writes events [root] →
      ofEvents events = .ok (root, [])) ∧
    ∀ events, (∀ tag ∈ tagsOf events, tag.IsPlain) →
      (¬ ∃ root, root.category = Document.rootCategory ∧
        (∀ e ∈ root.preorder, e.category ≠ includeTag) ∧ Writes events [root]) →
      ∃ malformation, ofEvents events = .error malformation := by
  refine ⟨fun root events => ofEvents_of_writes, fun events hplain hnone => ?_⟩
  cases hread : ofEvents events with
  | error malformation => exact ⟨malformation, rfl⟩
  | ok result =>
    obtain ⟨hroot, hdirectives, hwrites, -⟩ := writes_of_ofEvents hread hplain
    exact absurd ⟨result.1, hroot, hdirectives, hwrites⟩ hnone

/-- A root with two children, the first of which is named. -/
def sampleTree : Element where
  category := Document.rootCategory
  name := ""
  attributes := [("version", "1.38")]
  children := [{ category := "material", name := "m" }, { category := "look", name := "" }]

/-- The sample tree, with the name after no other attribute, a leaf as two tags, and a comment. -/
def sampleEvents : List Event :=
  [.other, .opening ⟨Document.rootCategory, [("version", "1.38")]⟩,
    .empty ⟨"material", [("name", "m")]⟩, .opening ⟨"look", []⟩, .closing, .other, .closing]

theorem ofEvents_inverts_writing_sample :
    Writes sampleEvents [sampleTree] ∧ ofEvents sampleEvents = .ok (sampleTree, []) ∧
    ∃ malformation, ofEvents (sampleEvents ++ sampleEvents) = .error malformation := by
  have hroot : Tag.Writes ⟨Document.rootCategory, [("version", "1.38")]⟩ sampleTree :=
    ⟨rfl, .inl ⟨rfl, rfl⟩, rfl, rfl⟩
  have hmaterial :
      Tag.Writes ⟨"material", [("name", "m")]⟩ { category := "material", name := "m" } :=
    ⟨rfl, .inr ⟨[], [], rfl, rfl⟩, rfl, rfl⟩
  have hlook : Tag.Writes ⟨"look", []⟩ { category := "look", name := "" } :=
    ⟨rfl, .inl ⟨rfl, rfl⟩, rfl, rfl⟩
  have hinside : Writes [.empty _, .opening _, .closing, .other] sampleTree.children :=
    .leaf hmaterial rfl (.element hlook .nil (.silent trivial .nil))
  have hwrites : Writes sampleEvents [sampleTree] :=
    .silent trivial (.element hroot hinside .nil)
  have hdirectives : ∀ e ∈ sampleTree.preorder, e.category ≠ includeTag := by decide
  have hplain : ∀ tag ∈ tagsOf (sampleEvents ++ sampleEvents), tag.name ≠ includeTag ∧
      (tag.attributes.map (·.1)).Nodup := by decide
  refine ⟨hwrites, ofEvents_inverts_writing.1 _ _ rfl hdirectives hwrites,
    ofEvents_inverts_writing.2 _ (fun tag htag => ⟨(hplain tag htag).1, (hplain tag htag).2⟩) ?_⟩
  rintro ⟨root, hcategory, hordinary, htwice⟩
  have hread := ofEvents_of_writes hcategory hordinary htwice
  have htwo : ofEvents (sampleEvents ++ sampleEvents) = .error .multipleRoots := rfl
  rw [htwo] at hread
  cases hread

end Element

/-! ## Texts -/

namespace Markup

/-- The keys that are scanned are different from each other and from those before them. -/
theorem keys_of_scanAttributes {seen : List (List Char)} {cs : List Char}
    {attributes : List (String × String)} (h : scanAttributes seen cs = .ok attributes) :
    (attributes.map (·.1)).Nodup ∧ ∀ key ∈ seen, String.ofList key ∉ attributes.map (·.1) := by
  fun_induction scanAttributes seen cs generalizing attributes with
  | case1 seen cs hcs =>
    cases h
    exact ⟨List.nodup_nil, fun _ _ => List.not_mem_nil⟩
  | case2 => cases h
  | case3 => cases h
  | case4 => cases h
  | case5 => cases h
  | case6 seen cs c more hcs key afterKey hkey hnew value rest hquoted resolved hresolved ih =>
    cases hscan : scanAttributes (key :: seen) rest with
    | error e =>
      rw [hscan] at h
      cases h
    | ok others =>
      rw [hscan] at h
      cases h
      obtain ⟨hothers, hapart⟩ := ih hscan
      rw [List.forall_mem_cons] at hapart
      rw [List.map_cons, List.nodup_cons]
      refine ⟨⟨hapart.1, hothers⟩, fun known hknown => ?_⟩
      rw [List.mem_cons, not_or]
      refine ⟨fun heq => hnew ?_, hapart.2 known hknown⟩
      rw [← String.ofList_inj.mp heq]
      exact List.contains_iff_mem.mpr hknown

theorem keys_of_scanTag {body : List Char} {tag : Tag} (h : scanTag body = .ok tag) :
    (tag.attributes.map (·.1)).Nodup := by
  unfold scanTag at h
  cases hscan : scanAttributes [] (body.dropWhile fun c => !isSpace c) with
  | error e =>
    rw [hscan] at h
    cases h
  | ok attributes =>
    rw [hscan] at h
    cases h
    exact (keys_of_scanAttributes hscan).1

theorem keys_of_mem_eventsFrom (opened : List (List Char)) (cs : List Char) :
    ∀ tag ∈ tagsOf (eventsFrom opened cs), (tag.attributes.map (·.1)).Nodup := by
  fun_induction eventsFrom opened cs with
  | case1 => exact List.forall_mem_nil _
  | case2 => exact List.forall_mem_nil _
  | case3 _ _ _ _ _ _ ih => exact ih
  | case4 _ _ _ _ _ _ _ ih => exact ih
  | case5 => exact List.forall_mem_nil _
  | case6 => exact List.forall_mem_nil _
  | case7 => exact List.forall_mem_nil _
  | case8 _ _ _ _ _ _ _ _ tag hscan _ ih =>
    exact List.forall_mem_cons.mpr ⟨keys_of_scanTag hscan, ih⟩
  | case9 _ _ _ _ _ _ _ _ tag hscan _ ih =>
    exact List.forall_mem_cons.mpr ⟨keys_of_scanTag hscan, ih⟩
  | case10 => exact List.forall_mem_nil _
  | case11 _ _ _ _ _ _ _ _ ih => exact ih

theorem keys_of_mem_events (text : String) :
    ∀ tag ∈ tagsOf (events text), (tag.attributes.map (·.1)).Nodup := by
  unfold events
  split <;> exact keys_of_mem_eventsFrom _ _

end Markup

/-- Of texts without directives exactly those are documents whose events write one root. -/
theorem Document.parseText_ok_iff {text : String} {d : Document} {hrefs : List String}
    (hordinary : ∀ tag ∈ Markup.tagsOf (Markup.events text), tag.name ≠ includeTag)
    (origin : String) : parseText origin text = .ok (d, hrefs) ↔
      d.root.category = rootCategory ∧ Markup.Writes (Markup.events text) [d.root] ∧
      d.source? = none ∧ hrefs = [] := by
  have hplain : ∀ tag ∈ Markup.tagsOf (Markup.events text), tag.IsPlain :=
    fun tag htag => ⟨hordinary tag htag, Markup.keys_of_mem_events text tag htag⟩
  unfold parseText
  constructor
  · intro h
    cases hread : Element.ofEvents (Markup.events text) with
    | error malformation =>
      rw [hread] at h
      cases h
    | ok result =>
      rw [hread] at h
      cases h
      obtain ⟨hroot, -, hwrites, hincludes⟩ := Element.writes_of_ofEvents hread hplain
      exact ⟨hroot, hwrites, rfl, hincludes⟩
  · rintro ⟨hroot, hwrites, hsource, rfl⟩
    obtain ⟨root, source?⟩ := d
    obtain rfl : source? = none := hsource
    have hdirectives : ∀ e ∈ root.preorder, e.category ≠ includeTag :=
      hwrites.ordinary hordinary
    rw [Element.ofEvents_of_writes hroot hdirectives hwrites]

end MaterialViewer
