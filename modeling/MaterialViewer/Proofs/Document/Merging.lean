import MaterialViewer.Document.Basic

/-!
# Proofs: merging documents

Importing a library adds, in order, the first of its elements of each name that the document does
not have. What a library has imported itself can as well be imported directly: the names that its
own elements take come first in both cases.
-/

namespace MaterialViewer.Document

variable {known : List String} {e : Element} {es : List Element}

/-- The elements whose name is none of the known ones, and only the first of each name. -/
def firstOfEachName (known : List String) : List Element → List Element
  | [] => []
  | e :: es =>
    if e.name ∈ known then firstOfEachName known es
    else e :: firstOfEachName (e.name :: known) es

/-- What is left out depends on which names are known, not on their order. -/
theorem firstOfEachName_congr {known' : List String} (h : ∀ name, name ∈ known ↔ name ∈ known') :
    firstOfEachName known es = firstOfEachName known' es := by
  induction es generalizing known known' with
  | nil => rfl
  | cons e es ih =>
    unfold firstOfEachName
    by_cases he : e.name ∈ known
    · rw [if_pos he, if_pos ((h _).mp he), ih h]
    · have he' : e.name ∉ known' := fun hmem => he ((h _).mpr hmem)
      have hrest : ∀ name, name ∈ e.name :: known ↔ name ∈ e.name :: known' := by
        intro name
        rw [List.mem_cons, List.mem_cons, h name]
      rw [if_neg he, if_neg he', ih hrest]

theorem firstOfEachName_sublist : (firstOfEachName known es).Sublist es := by
  induction es generalizing known with
  | nil => exact .slnil
  | cons e es ih =>
    unfold firstOfEachName
    split
    · exact ih.cons _
    · exact ih.cons_cons _

theorem firstOfEachName_eq_nil (h : ∀ e ∈ es, e.name ∈ known) : firstOfEachName known es = [] := by
  induction es with
  | nil => rfl
  | cons e es ih =>
    obtain ⟨he, hes⟩ := List.forall_mem_cons.mp h
    rw [firstOfEachName, if_pos he, ih hes]

/-- Naming a known one again makes no difference. -/
theorem mem_or_eq_or_iff {name : String} {p : Prop} (h : e.name ∈ known) :
    name ∈ known ∨ name = e.name ∨ p ↔ name ∈ known ∨ p := by
  constructor
  · rintro (hname | rfl | hp)
    · exact .inl hname
    · exact .inl h
    · exact .inr hp
  · exact Or.imp_right Or.inr

theorem mem_names_firstOfEachName {name : String} :
    name ∈ known ∨ name ∈ (firstOfEachName known es).map (·.name) ↔
      name ∈ known ∨ name ∈ es.map (·.name) := by
  induction es generalizing known with
  | nil => rfl
  | cons e es ih =>
    unfold firstOfEachName
    by_cases he : e.name ∈ known
    · rw [if_pos he, ih, List.map_cons, List.mem_cons, mem_or_eq_or_iff he]
    · have hrest : name ∈ e.name :: known ∨
          name ∈ (firstOfEachName (e.name :: known) es).map (·.name) ↔
            name ∈ e.name :: known ∨ name ∈ es.map (·.name) := ih
      simp only [List.mem_cons, or_assoc] at hrest
      rw [if_neg he, List.map_cons, List.map_cons, List.mem_cons, List.mem_cons, or_left_comm,
        hrest, or_left_comm]

theorem firstOfEachName_append (more : List Element) :
    firstOfEachName known (es ++ more) =
      firstOfEachName known es ++ firstOfEachName (known ++ es.map (·.name)) more := by
  induction es generalizing known with
  | nil => simp [firstOfEachName]
  | cons e es ih =>
    rw [List.cons_append, firstOfEachName, firstOfEachName]
    by_cases he : e.name ∈ known
    · rw [if_pos he, if_pos he, ih]
      congr 1
      refine firstOfEachName_congr fun name => ?_
      simp only [List.map_cons, List.mem_append, List.mem_cons, mem_or_eq_or_iff he]
    · rw [if_neg he, if_neg he, ih, List.cons_append]
      congr 2
      refine firstOfEachName_congr fun name => ?_
      simp only [List.map_cons, List.mem_append, List.mem_cons, or_left_comm]

/-- Leaving out what is left out anyway makes no difference. -/
theorem firstOfEachName_firstOfEachName {known' : List String}
    (h : ∀ name ∈ known', name ∈ known) :
    firstOfEachName known (firstOfEachName known' es) = firstOfEachName known es := by
  induction es generalizing known known' with
  | nil => rfl
  | cons e es ih =>
    rw [firstOfEachName.eq_def known' (e :: es)]
    dsimp only
    by_cases he' : e.name ∈ known'
    · rw [if_pos he', ih h, firstOfEachName, if_pos (h _ he')]
    · rw [if_neg he', firstOfEachName, firstOfEachName]
      by_cases he : e.name ∈ known
      · rw [if_pos he, if_pos he, ih]
        rintro name hname
        rcases List.mem_cons.mp hname with rfl | hname
        · exact he
        · exact h name hname
      · rw [if_neg he, if_neg he, ih]
        rintro name hname
        rcases List.mem_cons.mp hname with rfl | hname
        · exact List.mem_cons_self
        · exact List.mem_cons_of_mem _ (h name hname)

/-! ## First positions -/

/-- The element at a position does not have a known name, and none before it has its name. -/
def IsFirst (known : List String) (es : List Element) (i : Fin es.length) : Prop :=
  es[i].name ∉ known ∧ ∀ j < i, es[j].name ≠ es[i].name

instance (known : List String) (es : List Element) : DecidablePred (IsFirst known es) :=
  fun i => inferInstanceAs (Decidable (es[i].name ∉ known ∧ ∀ j < i, es[j].name ≠ es[i].name))

theorem isFirst_zero {h : 0 < (e :: es).length} :
    IsFirst known (e :: es) ⟨0, h⟩ ↔ e.name ∉ known :=
  and_iff_left fun _ hj => absurd hj (Nat.not_lt_zero _)

/-- For the elements after the head its name is a known one. -/
theorem isFirst_succ {i : Fin es.length} :
    IsFirst known (e :: es) i.succ ↔ IsFirst (e.name :: known) es i := by
  constructor
  · rintro ⟨hknown, hearlier⟩
    refine ⟨?_, fun j hj => hearlier j.succ (Fin.succ_lt_succ_iff.mpr hj)⟩
    exact List.not_mem_cons_of_ne_of_not_mem (hearlier ⟨0, Nat.succ_pos _⟩ i.succ_pos).symm hknown
  · rintro ⟨hknown, hearlier⟩
    refine ⟨List.not_mem_of_not_mem_cons hknown, fun j hj => ?_⟩
    cases j using Fin.cases with
    | zero => exact (List.ne_of_not_mem_cons hknown).symm
    | succ j => exact hearlier j (Fin.succ_lt_succ_iff.mp hj)

/-- The first elements of each name, told by their positions. -/
theorem firstOfEachName_eq_filter :
    firstOfEachName known es =
      ((List.finRange es.length).filter (IsFirst known es)).map (es[·]) := by
  induction es generalizing known with
  | nil => rfl
  | cons e es ih =>
    have hrest : ((List.map Fin.succ (List.finRange es.length)).filter
        (IsFirst known (e :: es))).map ((e :: es)[·]) = firstOfEachName (e.name :: known) es := by
      rw [ih, List.filter_map, List.map_map]
      congr 1
      exact List.filter_congr fun i _ => decide_eq_decide.mpr isFirst_succ
    have hpositions : List.finRange (e :: es).length =
        0 :: (List.finRange es.length).map Fin.succ := List.finRange_succ
    rw [hpositions, firstOfEachName]
    by_cases he : e.name ∈ known
    · have hzero : ¬ IsFirst known (e :: es) 0 := fun h => isFirst_zero.mp h he
      have hknown : firstOfEachName known es = firstOfEachName (e.name :: known) es := by
        refine firstOfEachName_congr fun name => ?_
        rw [List.mem_cons, iff_or_self]
        rintro rfl
        exact he
      rw [if_pos he, List.filter_cons, if_neg (by simpa using hzero)]
      exact hknown.trans hrest.symm
    · have hzero : IsFirst known (e :: es) 0 := isFirst_zero.mpr he
      rw [if_neg he, List.filter_cons, if_pos (by simpa using hzero), List.map_cons]
      exact congrArg (e :: ·) hrest.symm

/-! ## Importing -/

variable {d : Document}

theorem importedFrom_name (file? : Option Path) (e : Element) :
    (importedFrom file? e).name = e.name := by
  unfold importedFrom
  split <;> rfl

/-- The document with more elements, of which those with known names are left out. -/
def addNew (d : Document) (es : List Element) : Document :=
  { d with root := { d.root with
    children := d.elements ++ firstOfEachName (d.elements.map (·.name)) es } }

theorem elements_addNew (es : List Element) : (d.addNew es).elements =
    d.elements ++ firstOfEachName (d.elements.map (·.name)) es := rfl

theorem withElements_self (d : Document) :
    { d with root := { d.root with children := d.elements } } = d := by
  obtain ⟨⟨category, name, attributes, children, sourceUri⟩, source?⟩ := d
  rfl

theorem addNew_nil : d.addNew [] = d := by
  rw [addNew, firstOfEachName, List.append_nil, withElements_self]

/-- Elements can be added in two steps. -/
theorem addNew_addNew (es more : List Element) :
    (d.addNew es).addNew more = d.addNew (es ++ more) := by
  have hnames : firstOfEachName ((d.addNew es).elements.map (·.name)) more =
      firstOfEachName (d.elements.map (·.name) ++ es.map (·.name)) more := by
    refine firstOfEachName_congr fun name => ?_
    rw [elements_addNew, List.map_append, List.mem_append, List.mem_append,
      mem_names_firstOfEachName]
  rw [addNew, hnames, elements_addNew, addNew, addNew, firstOfEachName_append, List.append_assoc]

/-- Adding the first elements of each name is adding all of them, if the names that were known are
added as well. -/
theorem addNew_append_firstOfEachName {es : List Element}
    (h : ∀ name ∈ known, name ∈ es.map (·.name)) (more : List Element) :
    d.addNew (es ++ firstOfEachName known more) = d.addNew (es ++ more) := by
  rw [addNew, addNew, firstOfEachName_append, firstOfEachName_append,
    firstOfEachName_firstOfEachName fun name hname => List.mem_append_right _ (h name hname)]

theorem child?_isSome_iff {name : String} :
    (d.root.child? name).isSome = true ↔ name ∈ d.elements.map (·.name) := by
  rw [Element.child?, List.find?_isSome, List.mem_map]
  simp [elements]

theorem importElement_of_mem {file? : Option Path} (h : e.name ∈ d.elements.map (·.name)) :
    importElement file? d e = d := if_pos (child?_isSome_iff.mpr h)

theorem importElement_of_not_mem {file? : Option Path} (h : e.name ∉ d.elements.map (·.name)) :
    importElement file? d e = d.add (importedFrom file? e) := if_neg (mt child?_isSome_iff.mp h)

theorem importElement_eq (file? : Option Path) (d : Document) (e : Element) :
    importElement file? d e = d.addNew [importedFrom file? e] := by
  rw [addNew, firstOfEachName, firstOfEachName, importedFrom_name]
  by_cases he : e.name ∈ d.elements.map (·.name)
  · rw [importElement_of_mem he, if_pos he, List.append_nil, withElements_self]
  · rw [importElement_of_not_mem he, if_neg he, firstOfEachName]
    rfl

/-- A library is imported as a whole. -/
theorem importLibrary_eq (d library : Document) :
    d.importLibrary library =
      d.addNew (library.elements.map (importedFrom library.source?)) := by
  rw [importLibrary]
  induction library.elements generalizing d with
  | nil => exact addNew_nil.symm
  | cons e es ih => rw [List.foldl_cons, ih, importElement_eq, addNew_addNew]; rfl

/-! ## What a library adds -/

/-- The elements that importing adds are counted. -/
theorem foldl_importCounting (file? : Option Path) (count : Nat) :
    es.foldl (importCounting file?) (d, count) =
      (es.foldl (importElement file?) d,
        count + (firstOfEachName (d.elements.map (·.name)) es).length) := by
  induction es generalizing d count with
  | nil => rfl
  | cons e es ih =>
    rw [List.foldl_cons, List.foldl_cons, importCounting, ih, firstOfEachName]
    dsimp only
    by_cases he : e.name ∈ d.elements.map (·.name)
    · rw [if_pos (child?_isSome_iff.mpr he), if_pos he, importElement_of_mem he]
    · have hnames : ∀ name, name ∈ (d.add (importedFrom file? e)).elements.map (·.name) ↔
          name ∈ e.name :: d.elements.map (·.name) := by
        intro name
        simp [add, elements, Element.addChild, importedFrom_name, or_comm]
      rw [if_neg (mt child?_isSome_iff.mp he), if_neg he, importElement_of_not_mem he,
        firstOfEachName_congr hnames, List.length_cons, Nat.add_assoc, Nat.add_comm 1]

theorem importCount_eq (d library : Document) :
    d.importCount library =
      (firstOfEachName (d.elements.map (·.name)) library.elements).length := by
  rw [importCount, foldl_importCounting, Nat.zero_add]

/-- Importing an element gives it the file of the library if it has none. -/
theorem importedFrom_eq (file? : Option Path) (e : Element) : importedFrom file? e =
    { e with sourceUri := e.sourceUri.or (file?.map (·.text)) } := by
  obtain ⟨category, name, attributes, children, sourceUri⟩ := e
  cases sourceUri <;> rfl

theorem importedFrom_of_isSome {file? : Option Path} (h : e.sourceUri.isSome = true) :
    importedFrom file? e = e := by
  obtain ⟨uri, huri⟩ := Option.isSome_iff_exists.mp h
  rw [importedFrom, huri]

theorem map_importedFrom_of_isSome {file? : Option Path}
    (h : ∀ e ∈ es, e.sourceUri.isSome = true) : es.map (importedFrom file?) = es :=
  (List.map_congr_left fun e he => importedFrom_of_isSome (h e he)).trans (List.map_id es)

theorem names_map_importedFrom (file? : Option Path) :
    (es.map (importedFrom file?)).map (·.name) = es.map (·.name) := by
  rw [List.map_map]
  exact List.map_congr_left fun e _ => importedFrom_name file? e

/-- What is left out does not depend on the files of the elements. -/
theorem firstOfEachName_map_importedFrom (file? : Option Path) :
    firstOfEachName known (es.map (importedFrom file?)) =
      (firstOfEachName known es).map (importedFrom file?) := by
  induction es generalizing known with
  | nil => rfl
  | cons e es ih =>
    rw [List.map_cons, firstOfEachName, firstOfEachName, importedFrom_name]
    by_cases he : e.name ∈ known
    · rw [if_pos he, if_pos he, ih]
    · rw [if_neg he, if_neg he, ih, List.map_cons]

/-- The elements of a library that are new to a document: no element of the document has the name,
and none that stands before it in the library. -/
def newElements (d library : Document) : List Element :=
  ((List.finRange library.elements.length).filter
    (IsFirst (d.elements.map (·.name)) library.elements)).map (library.elements[·])

theorem importLibrary_newElements (d library : Document) :
    d.importLibrary library = { d with root := { d.root with
      children := d.elements ++ (d.newElements library).map (importedFrom library.source?) } } := by
  rw [importLibrary_eq, addNew, firstOfEachName_map_importedFrom, firstOfEachName_eq_filter,
    newElements]

/-- Nothing of a library is new to a document that has imported it. -/
theorem newElements_importLibrary (d library : Document) :
    (d.importLibrary library).newElements library = [] := by
  rw [newElements, ← firstOfEachName_eq_filter]
  refine firstOfEachName_eq_nil fun e he => ?_
  rw [importLibrary_eq, elements_addNew, List.map_append, List.mem_append,
    mem_names_firstOfEachName, names_map_importedFrom]
  exact .inr (List.mem_map_of_mem he)

theorem importLibrary_eq_self {library : Document} (h : d.newElements library = []) :
    d.importLibrary library = d := by
  rw [importLibrary_newElements, h, List.map_nil, List.append_nil, withElements_self]

theorem importCount_newElements (d library : Document) :
    d.importCount library = (d.newElements library).length := by
  rw [importCount_eq, firstOfEachName_eq_filter, newElements]

/-- What a library has imported itself, with files of its own, can as well be imported after the
library. -/
theorem importLibrary_importLibrary {b c : Document} (a : Document)
    (hc : ∀ e ∈ c.elements, e.sourceUri.isSome = true) :
    a.importLibrary (b.importLibrary c) = (a.importLibrary b).importLibrary c := by
  have hnew : ∀ e ∈ firstOfEachName (b.elements.map (·.name)) c.elements,
      e.sourceUri.isSome = true := fun e he => hc e (firstOfEachName_sublist.mem he)
  have hnames : ∀ name ∈ b.elements.map (·.name),
      name ∈ (b.elements.map (importedFrom b.source?)).map (·.name) := by
    rw [names_map_importedFrom]
    exact fun name => id
  calc a.importLibrary (b.importLibrary c)
    _ = a.addNew (b.elements.map (importedFrom b.source?) ++
          firstOfEachName (b.elements.map (·.name)) c.elements) := by
        have hsource : (b.addNew c.elements).source? = b.source? := rfl
        rw [importLibrary_eq, importLibrary_eq b c, map_importedFrom_of_isSome hc, hsource,
          elements_addNew, List.map_append, map_importedFrom_of_isSome hnew]
    _ = a.addNew (b.elements.map (importedFrom b.source?) ++ c.elements) :=
        addNew_append_firstOfEachName hnames c.elements
    _ = (a.importLibrary b).importLibrary c := by
        rw [importLibrary_eq a b, importLibrary_eq, map_importedFrom_of_isSome hc, addNew_addNew]

/-- Importing a library is a merge in which the first definition of a name wins. The elements of the
document stay, and after them come the elements of the library that are new, unchanged except that
those without a file get the file of the library; they are counted. Importing the library again adds
nothing. A library whose elements have files can be imported with the library that has imported it,
or after it. -/
theorem importLibrary_firstWins (a b c : Document) :
    (a.importLibrary b = { a with root := { a.root with
      children := a.elements ++ (a.newElements b).map fun e =>
        { e with sourceUri := e.sourceUri.or (b.source?.map (·.text)) } } } ∧
      a.importCount b = (a.newElements b).length) ∧
    ((a.importLibrary b).importLibrary b = a.importLibrary b ∧
      (a.importLibrary b).importCount b = 0) ∧
    ((∀ e ∈ c.elements, e.sourceUri.isSome = true) →
      a.importLibrary (b.importLibrary c) = (a.importLibrary b).importLibrary c) := by
  have hagain := newElements_importLibrary a b
  refine ⟨⟨?_, importCount_newElements a b⟩, ⟨importLibrary_eq_self hagain, ?_⟩,
    importLibrary_importLibrary a⟩
  · rw [importLibrary_newElements, List.map_congr_left fun e _ => importedFrom_eq b.source? e]
  · rw [importCount_newElements, hagain, List.length_nil]

/-- A document with definitions, each one with its name and its file. -/
def listing (file? : Option Path) (entries : List (String × Option String)) : Document where
  root :=
    { category := rootCategory, name := ""
      children := entries.map fun (name, sourceUri) => { category := "nodedef", name, sourceUri } }
  source? := file?

theorem importLibrary_firstWins_listing :
    let a := listing none [("ND_a", none)]
    let b := listing (some ⟨"b.mtlx"⟩) [("ND_a", none), ("ND_b", none), ("ND_b", some "own.mtlx")]
    let c := listing (some ⟨"c.mtlx"⟩) [("ND_b", some "c.mtlx"), ("ND_c", some "d.mtlx")]
    (∀ e ∈ c.elements, e.sourceUri.isSome = true) ∧
      a.importLibrary (b.importLibrary c) = (a.importLibrary b).importLibrary c ∧
      ((a.importLibrary b).importLibrary c).elements.map (fun e => (e.name, e.sourceUri)) =
        [("ND_a", none), ("ND_b", some "b.mtlx"), ("ND_c", some "d.mtlx")] := by
  intro a b c
  have hfiles : ∀ e ∈ c.elements, e.sourceUri.isSome = true := by decide
  exact ⟨hfiles, (importLibrary_firstWins a b c).2.2 hfiles, by decide⟩

end MaterialViewer.Document
