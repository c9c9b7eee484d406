import MaterialViewer.Proofs.Document.Siblings

/-!
# Proofs: what a path addresses

An element is looked up, changed and removed by its path. Looking up and changing go down along the
names of the path; removing cuts the path at its last slash, goes down along the names in front and
takes a child by the name behind. The two agree on the place in the tree for every path that ends
with a name. A path that ends with a slash, and the empty path, have an empty name behind the cut:
there, removing looks for a child without a name, which the other two do not.
-/

namespace MaterialViewer

namespace Element

/-! ## Places in a tree -/

/-- A gap among the children of an element. -/
structure Gap where
  /-- The element, whose own children play no part. -/
  holder : Element
  /-- The children in front of the gap. -/
  front : List Element
  /-- The children behind the gap. -/
  back : List Element

/-- The holder with elements in the gap. -/
def Gap.fill (g : Gap) (es : List Element) : Element :=
  { g.holder with children := g.front ++ es ++ g.back }

/-- The tree with an element inside gaps, the outermost first. -/
def inside : List Gap → Element → Element
  | [], e => e
  | g :: gaps, e => g.fill [inside gaps e]

/-- A place below the root of a tree, told by all that surrounds it. -/
structure Surroundings where
  /-- The gaps around the element that holds the place, the outermost first. -/
  outer : List Gap
  /-- The gap itself. -/
  gap : Gap

/-- The tree with elements at the place. -/
def Surroundings.fill (s : Surroundings) (es : List Element) : Element :=
  inside s.outer (s.gap.fill es)

variable {e c holder : Element} {g : Gap} {name : String} {f : Element → Element}

/-- The gap is at the first child with a name. -/
structure Gap.IsAt (g : Gap) (name : String) (c : Element) : Prop where
  named : c.name = name
  front : ∀ x ∈ g.front, x.name ≠ name

theorem exists_gap (h : e.child? name = some c) : ∃ g : Gap, g.IsAt name c ∧ e = g.fill [c] := by
  obtain ⟨category, ename, attributes, children, uri⟩ := e
  obtain ⟨hname, front, back, hchildren, hfront⟩ := List.find?_eq_some_iff_append.mp h
  obtain rfl : children = front ++ c :: back := hchildren
  refine ⟨⟨⟨category, ename, attributes, [], uri⟩, front, back⟩, ⟨by simpa using hname, ?_⟩, ?_⟩
  · intro x hx
    simpa using hfront x hx
  · simp [Gap.fill]

theorem Gap.IsAt.child?_fill (h : g.IsAt name c) : (g.fill [c]).child? name = some c := by
  refine List.find?_eq_some_iff_append.mpr ⟨by simpa using h.named, g.front, g.back, ?_, ?_⟩
  · simp [fill]
  · intro x hx
    simpa using h.front x hx

theorem Gap.IsAt.takeChild?_fill (h : g.IsAt name c) :
    (g.fill [c]).takeChild? name = some (c, g.fill []) := by
  have hfront : ∀ x ∈ g.front, ¬ decide (x.name = name) = true := by simpa using h.front
  have hrest : (g.front ++ [c] ++ g.back).eraseP (·.name = name) = g.front ++ [] ++ g.back := by
    rw [List.append_assoc, List.eraseP_append_right _ hfront, List.singleton_append,
      List.eraseP_cons_of_pos (by simpa using h.named), List.append_nil]
  rw [takeChild?, h.child?_fill, Option.map_some]
  simp only [fill, hrest]

theorem Gap.IsAt.modifyAt?_fill (h : g.IsAt name c) (names : List String) :
    modifyAt? f (name :: names) (g.fill [c]) =
      (modifyAt? f names c).map fun c' => g.fill [c'] := by
  have hreplace : replaceFirst? (·.name = name) (modifyAt? f names) (g.front ++ [c] ++ g.back) =
      (modifyAt? f names c).map (g.front ++ · :: g.back) := by
    rw [List.append_assoc, List.singleton_append]
    exact replaceFirst?_append (fun x hx => by simpa using h.front x hx) (by simpa using h.named)
  rw [modifyAt?, fill, hreplace, Option.map_map]
  refine congrFun (congrArg Option.map (funext fun c' => ?_)) _
  simp [fill]

/-- What is reached along names stands in a tree that a change further down leaves as it is around
it. -/
theorem exists_outer {names : List String} (h : e.follow? names = some holder) :
    ∃ outer, e = inside outer holder ∧
      ∀ f rest, modifyAt? f (names ++ rest) e = (modifyAt? f rest holder).map (inside outer) := by
  induction names generalizing e with
  | nil =>
    obtain rfl := Option.some.inj h
    refine ⟨[], rfl, fun f rest => ?_⟩
    rw [List.nil_append]
    exact Option.map_id'.symm
  | cons name names ih =>
    obtain ⟨c, hc, h⟩ := Option.bind_eq_some_iff.mp h
    obtain ⟨outer, rfl, hmodify⟩ := ih h
    obtain ⟨g, hg, rfl⟩ := exists_gap hc
    refine ⟨g :: outer, rfl, fun f rest => ?_⟩
    rw [List.cons_append, hg.modifyAt?_fill, hmodify, Option.map_map]
    rfl

theorem replaceFirst?_eq_none {p : Element → Bool} {f : Element → Option Element}
    {es : List Element} (h : ∀ e, es.find? p = some e → f e = none) :
    replaceFirst? p f es = none := by
  induction es with
  | nil => rfl
  | cons x es ih =>
    rw [replaceFirst?]
    by_cases hx : p x = true
    · rw [if_pos hx, h x (List.find?_cons_of_pos hx)]
      rfl
    · rw [if_neg hx, ih fun e he => h e (by rwa [List.find?_cons_of_neg hx])]
      rfl

/-- Where names lead nowhere there is nothing to change. -/
theorem modifyAt?_eq_none {names : List String} (h : e.follow? names = none) :
    modifyAt? f names e = none := by
  induction names generalizing e with
  | nil => cases h
  | cons name names ih =>
    have hchild : ∀ c, e.child? name = some c → modifyAt? f names c = none := by
      intro c hc
      have hrest : c.follow? names = none := by
        rw [follow?, hc] at h
        exact h
      exact ih hrest
    rw [modifyAt?, replaceFirst?_eq_none hchild]
    rfl

/-- A child is smaller than the element that holds it. -/
theorem size_lt_of_child? (h : e.child? name = some c) : c.size < e.size := by
  have hmem : c ∈ e.children := List.mem_of_find?_eq_some h
  have hle : ∀ es : List Element, c ∈ es → c.size ≤ sizeAll es := by
    intro es hc
    induction es with
    | nil => cases hc
    | cons x es ih =>
      rw [sizeAll]
      rcases List.mem_cons.mp hc with rfl | hc
      · omega
      · have := ih hc
        omega
  have := hle e.children hmem
  rw [size_eq e]
  omega

end Element

namespace Document

open Element (Gap Surroundings inside namesOf)

variable {d : Document} {path parent name : String} {e : Element}

/-! ## Cutting a path -/

/-- A path ends with a slash. -/
def EndsInSlash (path : String) : Prop := path.toList.getLast? = some '/'

instance : DecidablePred EndsInSlash :=
  fun path => inferInstanceAs (Decidable (path.toList.getLast? = some '/'))

/-- A path is cut into the path of the parent and a text without slashes, which is empty if the path
is empty or ends with a slash. -/
theorem splitPath_spec (h : splitPath path = (parent, name)) :
    '/' ∉ name.toList ∧ namesOf path = namesOf parent ++ namesOf name ∧
      (name = "" ↔ path = "" ∨ EndsInSlash path) := by
  unfold splitPath at h
  split at h
  · rename_i front back hsplit
    obtain ⟨rfl, rfl⟩ := Prod.mk.inj h
    have hback : '/' ∉ back := Text.not_mem_of_splitAtLast? hsplit
    have hpath : path = String.ofList front ++ "/" ++ String.ofList back := by
      apply String.toList_injective
      simp [Text.eq_append_of_splitAtLast? hsplit]
    refine ⟨by rwa [String.toList_ofList], hpath ▸ Element.namesOf_append _ _, ?_⟩
    have hne : path ≠ "" := fun h => by simp [h] at hpath
    rw [EndsInSlash, Text.eq_append_of_splitAtLast? hsplit]
    cases back with
    | nil => simp
    | cons c back =>
      have hlast : (c :: back).getLast? ≠ some '/' := fun h => hback (List.mem_of_getLast? h)
      simp [hne, hlast]
  · rename_i hsplit
    obtain ⟨rfl, rfl⟩ := Prod.mk.inj h
    have hpath := Text.not_mem_of_splitAtLast?_eq_none hsplit
    have hslash : ¬ EndsInSlash path := fun h => hpath (List.mem_of_getLast? h)
    exact ⟨hpath, rfl, by simp [hslash]⟩

/-! ## What a path addresses -/

/-- Looking up, changing and removing by a path all concern the element at one place of the tree,
and leave everything around it as it is. -/
structure Addresses (d : Document) (path : String) (s : Surroundings) (e : Element) : Prop where
  root : d.root = s.fill [e]
  element : d.element? path = some e
  modify : ∀ f, d.modify? f path = some { d with root := s.fill [f e] }
  take : d.take? path = some (e, { d with root := s.fill [] })

/-- Looking up, changing and removing by a path find nothing. -/
structure AddressesNothing (d : Document) (path : String) : Prop where
  element : d.element? path = none
  modify : ∀ f, d.modify? f path = none
  take : d.take? path = none

/-- Looking up, changing and removing by a path agree on what the path addresses. -/
def AgreesOn (d : Document) (path : String) : Prop :=
  (∃ s e, d.Addresses path s e) ∨ d.AddressesNothing path

/-! ## Removing -/

section Removing

variable {holder c : Element} (hcut : splitPath path = (parent, name))
include hcut

/-- Removing takes the first child with the name behind the cut out of the element that the path in
front of it leads to. -/
theorem take?_of_child? (hholder : d.root.descendant? parent = some holder)
    (hc : holder.child? name = some c) :
    ∃ (outer : List Gap) (g : Gap), d.root = inside outer (g.fill [c]) ∧
      d.take? path = some (c, { d with root := inside outer (g.fill []) }) ∧
      ∀ f rest, Element.modifyAt? f (namesOf parent ++ name :: rest) d.root =
        (Element.modifyAt? f rest c).map fun c' => inside outer (g.fill [c']) := by
  obtain ⟨outer, hroot, hmodify⟩ := Element.exists_outer hholder
  obtain ⟨g, hg, rfl⟩ := Element.exists_gap hc
  refine ⟨outer, g, hroot, ?_, fun f rest => ?_⟩
  · have hchange (f : Element → Element) :
        d.root.modify? f parent = some (inside outer (f (g.fill [c]))) := by
      have h := hmodify f []
      rw [List.append_nil] at h
      exact h
    rw [take?, hcut]
    simp only [hholder, hchange, hg.takeChild?_fill, Option.bind_some, Option.map_some,
      Option.getD_some]
  · rw [hmodify, hg.modifyAt?_fill, Option.map_map]
    rfl

theorem map_fst_take? :
    (d.take? path).map (·.1) = (d.root.descendant? parent).bind (·.child? name) := by
  cases hholder : d.root.descendant? parent with
  | none => rw [take?, hcut]; simp [hholder]
  | some holder =>
    rw [Option.bind_some]
    cases hc : holder.child? name with
    | none => rw [take?, hcut]; simp [hholder, Element.takeChild?, hc]
    | some c =>
      obtain ⟨_, _, -, htake, -⟩ := take?_of_child? hcut hholder hc
      rw [htake]
      rfl

/-- A path that ends with a name addresses one place, or nothing. -/
theorem agreesOn_of_named (hne : name ≠ "") : d.AgreesOn path := by
  obtain ⟨hname, hnames, hend⟩ := splitPath_spec hcut
  have hpath : path ≠ "" := fun h => hne (hend.mpr (.inl h))
  rw [Element.namesOf_single hname hne] at hnames
  have hfollow : d.element? path = d.root.follow? (namesOf path) := if_neg hpath
  have hchild : d.element? path = (d.root.descendant? parent).bind (·.child? name) := by
    rw [hfollow, hnames, Element.follow?_append]
    simp only [Element.follow?_single, Element.descendant?]
  have hmodify (f : Element → Element) : d.modify? f path =
      (Element.modifyAt? f (namesOf path) d.root).map fun root => { d with root } := if_neg hpath
  cases hfound : d.element? path with
  | none =>
    refine .inr ⟨hfound, fun f => ?_, ?_⟩
    · rw [hmodify, Element.modifyAt?_eq_none (hfollow ▸ hfound)]
      rfl
    · rw [← Option.map_eq_none_iff, map_fst_take? hcut, ← hchild, hfound]
  | some c =>
    obtain ⟨holder, hholder, hc⟩ := Option.bind_eq_some_iff.mp (hchild ▸ hfound)
    obtain ⟨outer, g, hroot, htake, hchange⟩ := take?_of_child? hcut hholder hc
    refine .inl ⟨⟨outer, g⟩, c, hroot, hfound, fun f => ?_, htake⟩
    rw [hmodify, hnames, hchange]
    rfl

/-- Without a name behind the cut, the path in front leads to the element that is looked up. -/
theorem element?_of_unnamed (hname : name = "") (hpath : path ≠ "") :
    d.element? path = d.root.descendant? parent := by
  obtain ⟨-, hnames, -⟩ := splitPath_spec hcut
  have hempty : namesOf name = [] := by rw [hname]; rfl
  rw [element?, if_neg hpath, Element.descendant?, hnames, hempty, List.append_nil]
  rfl

/-- Without a name behind the cut there is agreement only if nothing is found. -/
theorem agreesOn_iff_of_unnamed (hname : name = "") :
    d.AgreesOn path ↔ d.element? path = none ∧ d.take? path = none := by
  constructor
  · rintro (⟨s, e, h⟩ | h)
    · have hpath : path ≠ "" := by
        intro hpath
        have hfound := h.element
        rw [element?, if_pos hpath] at hfound
        cases hfound
      -- what is removed would be a child of itself
      have hchild : e.child? name = some e := by
        have htaken := map_fst_take? hcut (d := d)
        rw [h.take, ← element?_of_unnamed hcut hname hpath, h.element] at htaken
        exact htaken.symm
      exact absurd (Element.size_lt_of_child? hchild) (Nat.lt_irrefl _)
    · exact ⟨h.element, h.take⟩
  · rintro ⟨helement, htake⟩
    refine .inr ⟨helement, fun f => ?_, htake⟩
    by_cases hpath : path = ""
    · exact if_pos hpath
    · have hfollow : d.root.follow? (namesOf path) = none := by
        rwa [element?, if_neg hpath] at helement
      rw [modify?, if_neg hpath, Element.modify?, Element.modifyAt?_eq_none hfollow]
      rfl

end Removing

/-- Looking up, changing and removing agree on every path but two kinds: the empty path, by which
only removing finds a child of the root without a name, and the path of an element with a slash
behind it, by which only removing does not find the element. A name without slashes, joined to the
path of an element, addresses its first child with that name. -/
theorem agreesOn_iff (d : Document) :
    (∀ path, d.AgreesOn path ↔
      (path = "" → d.root.child? "" = none) ∧ (EndsInSlash path → d.element? path = none)) ∧
    ∀ parent name e, d.element? parent = some e → name ≠ "" → '/' ∉ name.toList →
      d.element? (Element.joinPath parent name) = e.children.find? (·.name = name) := by
  refine ⟨fun path => ?_, fun parent name e hparent hne hname => ?_⟩
  · obtain ⟨⟨parent, name⟩, hcut⟩ : ∃ cut, splitPath path = cut := ⟨_, rfl⟩
    obtain ⟨-, -, hend⟩ := splitPath_spec hcut
    by_cases hname : name = ""
    · rw [agreesOn_iff_of_unnamed hcut hname, ← Option.map_eq_none_iff (x := d.take? path),
        map_fst_take? hcut, hname]
      rcases hend.mp hname with rfl | hslash
      · obtain ⟨rfl, -⟩ := Prod.mk.inj hcut.symm
        have hroot : d.root.descendant? "" = some d.root := rfl
        have hplain : ¬ EndsInSlash "" := by decide
        simp [element?, hroot, hplain]
      · have hpath : path ≠ "" := by
          rintro rfl
          cases hslash
        rw [element?_of_unnamed hcut hname hpath]
        constructor
        · exact fun h => ⟨fun h' => absurd h' hpath, fun _ => h.1⟩
        · intro h
          rw [h.2 hslash]
          exact ⟨rfl, rfl⟩
    · exact iff_of_true (agreesOn_of_named hcut hname)
        ⟨fun h => absurd (hend.mpr (.inl h)) hname, fun h => absurd (hend.mpr (.inr h)) hname⟩
  · obtain ⟨hpath, hfound⟩ := Option.ite_none_left_eq_some.mp hparent
    have hjoin : Element.joinPath parent name ≠ "" := by
      rw [Element.joinPath, if_neg hpath]
      simp
    rw [element?, if_neg hjoin, Element.descendant?_joinPath hname hne, hfound]
    rfl

/-- A document with two materials of one name, of which the first has two shader references of one
name. -/
def twinDocument : Document where
  root :=
    { category := rootCategory, name := ""
      children :=
        [{ category := "material", name := "m"
           children :=
            [{ category := "shaderref", name := "sr", attributes := [("node", "a")] },
              { category := "shaderref", name := "sr", attributes := [("node", "b")] }] },
          { category := "material", name := "m" }] }

/-- Among twins the first is meant. -/
theorem agreesOn_iff_twins :
    ∃ m, twinDocument.element? "m" = some m ∧ "sr" ≠ "" ∧ '/' ∉ "sr".toList ∧
      twinDocument.AgreesOn "m//sr" ∧
      twinDocument.element? (Element.joinPath "m" "sr") =
        some { category := "shaderref", name := "sr", attributes := [("node", "a")] } := by
  obtain ⟨hagrees, hjoined⟩ := agreesOn_iff twinDocument
  refine ⟨_, rfl, by decide, by decide, (hagrees "m//sr").mpr (by decide), ?_⟩
  exact hjoined "m" "sr" _ rfl (by decide) (by decide)

/-- By its path with a slash behind it, a material is looked up but not removed; by the empty path
nothing is looked up, but an element without a name is removed. -/
theorem not_agreesOn_unnamed :
    ¬ twinDocument.AgreesOn "m/" ∧
      ¬ (empty.add { category := "material", name := "" }).AgreesOn "" := by
  have hcut : splitPath "m/" = ("m", "") := by decide
  have hcut' : splitPath "" = ("", "") := rfl
  refine ⟨fun h => ?_, fun h => ?_⟩
  · cases ((agreesOn_iff_of_unnamed hcut rfl).mp h).1
  · cases ((agreesOn_iff_of_unnamed hcut' rfl).mp h).2

end Document

end MaterialViewer
