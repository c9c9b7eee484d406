import Mathlib.Data.List.Basic
import MaterialViewer.Document.Renderable
import MaterialViewer.Proofs.Document.Resolution
import MaterialViewer.Proofs.Document.Siblings

/-!
# Proofs: redirected shader references

Before a document is searched for what can be drawn, its shader references are redirected from node
definitions without an implementation to implemented ones. The references are found in a first pass,
as paths, and changed one after the other in a second. Where siblings have names of their own, both
passes together change just the references concerned, and what they decide is not disturbed by what
they change. Afterwards the references that can be drawn are those that had an implementation at
first or can be redirected to one, and each of them resolves.
-/

namespace MaterialViewer.Document

variable {d : Document} {target? : Option Target} {ref other e : Element}

/-- A node definition stands in for that of a shader reference: the reference's own has no
implementation, and of the definitions for the same nodes that have one, this is the last. -/
def StandsIn (d : Document) (target? : Option Target) (ref other : Element) : Prop :=
  ∃ own category front back,
    d.nodeDefOfShaderRef? ref = some own ∧ own.attribute? "node" = some category ∧
    d.hasImplementation own.name target? = false ∧
    d.nodeDefs = front ++ other :: back ∧
    other.attribute? "node" = some category ∧ d.hasImplementation other.name target? = true ∧
    ∀ e ∈ back, e.attribute? "node" = some category → d.hasImplementation e.name target? = false

/-- A shader reference with the node definition that stands in for its own. -/
def redirected (d : Document) (target? : Option Target) (ref : Element) : Element :=
  match d.alternative? target? ref with
  | some other => ref.setAttribute "nodedef" other.name
  | none => ref

/-- A material with `f` applied to its shader references, and any other element as it is. -/
def withShaderRefs (f : Element → Element) (e : Element) : Element :=
  if e.category = "material" then
    { e with children := e.children.map fun c => if c.category = "shaderref" then f c else c }
  else e

/-- The document with `f` applied to the shader references of materials. -/
def mapShaderRefs (f : Element → Element) (d : Document) : Document :=
  { d with root := { d.root with children := d.root.children.map (withShaderRefs f) } }

/-- Whether a shader reference can be drawn: the node definition that it stands for has an
implementation. -/
def isDrawn (d : Document) (target? : Option Target) (ref : Element) : Bool :=
  (d.nodeDefOfShaderRef? ref).any fun nodeDef => d.hasImplementation nodeDef.name target?

/-! ## The definition that stands in -/

/-- The last of the elements that satisfy `p`. -/
theorem getLast?_filter_eq_some_iff {es : List Element} {p : Element → Bool} :
    (es.filter p).getLast? = some e ↔
      ∃ front back, es = front ++ e :: back ∧ p e = true ∧ ∀ x ∈ back, p x = false := by
  rw [List.getLast?_eq_head?_reverse, ← List.filter_reverse, List.head?_filter,
    List.find?_eq_some_iff_append]
  constructor
  · rintro ⟨he, front, back, heq, hfront⟩
    refine ⟨back.reverse, front.reverse, ?_, he, fun x hx => ?_⟩
    · simpa using congrArg List.reverse heq
    · simpa using hfront x (List.mem_reverse.mp hx)
  · rintro ⟨front, back, heq, he, hback⟩
    refine ⟨he, back.reverse, front.reverse, by simp [heq], fun x hx => ?_⟩
    simpa using hback x (List.mem_reverse.mp hx)

/-- The reference's own definition has no implementation, so its name need not be excluded. -/
theorem filter_nodeDefsFor {own : Element} {category : String}
    (himpl : d.hasImplementation own.name target? = false) :
    ((d.nodeDefsFor category).filter fun other =>
        other.name ≠ own.name && d.hasImplementation other.name target?) =
      d.nodeDefs.filter fun other =>
        other.attribute? "node" = some category && d.hasImplementation other.name target? := by
  rw [nodeDefsFor, List.filter_filter]
  refine List.filter_congr fun other _ => ?_
  cases hother : d.hasImplementation other.name target? with
  | false => simp
  | true =>
    have hne : other.name ≠ own.name := by
      intro heq
      rw [heq, himpl] at hother
      cases hother
    simp [hne]

theorem alternative?_eq_some_iff :
    d.alternative? target? ref = some other ↔ d.StandsIn target? ref other := by
  unfold alternative? StandsIn
  cases hown : d.nodeDefOfShaderRef? ref with
  | none => simp
  | some own =>
    cases himpl : d.hasImplementation own.name target? with
    | true => simp [himpl]
    | false =>
      cases hnode : own.attribute? "node" with
      | none => simp [hnode]
      | some category =>
        simp only [himpl, hnode, filter_nodeDefsFor himpl, Bool.false_eq_true, if_false]
        rw [getLast?_filter_eq_some_iff]
        simp [and_assoc, himpl, hnode]

theorem StandsIn.mem_nodeDefs (h : d.StandsIn target? ref other) : other ∈ d.nodeDefs := by
  obtain ⟨own, category, front, back, -, -, -, hdefs, -⟩ := h
  rw [hdefs]
  exact List.mem_append_right _ List.mem_cons_self

theorem StandsIn.implemented (h : d.StandsIn target? ref other) :
    d.hasImplementation other.name target? = true := by
  obtain ⟨own, category, front, back, -, -, -, -, -, himpl, -⟩ := h
  exact himpl

/-- A reference that can be drawn keeps its node definition. -/
theorem alternative?_of_isDrawn (h : d.isDrawn target? ref = true) :
    d.alternative? target? ref = none := by
  rw [Option.eq_none_iff_forall_ne_some]
  intro other hother
  obtain ⟨own, category, front, back, hown, -, himpl, -⟩ := alternative?_eq_some_iff.mp hother
  rw [isDrawn, hown, Option.any_some, himpl] at h
  cases h

/-! ## Both passes -/

/-- The name of the definition to which a child of a material is redirected, if it is. -/
def newDefinition (d : Document) (target? : Option Target) (e : Element) : List String :=
  if e.category = "shaderref" then ((d.alternative? target? e).map (·.name)).toList else []

/-- The redirections of the children of an element, by their names. -/
def redirections (d : Document) (target? : Option Target) (e : Element) : List (String × String) :=
  if e.category = "material" then
    e.children.flatMap fun c => (d.newDefinition target? c).map (c.name, ·)
  else []

theorem filterMap_shaderRefs (name : String) (es : List Element) :
    ((es.filter (·.category = "shaderref")).filterMap fun ref =>
        (d.alternative? target? ref).map fun nodeDef => (name ++ "/" ++ ref.name, nodeDef.name)) =
      (es.flatMap fun c => (d.newDefinition target? c).map (c.name, ·)).map fun r =>
        (name ++ "/" ++ r.1, r.2) := by
  induction es with
  | nil => rfl
  | cons c es ih =>
    unfold newDefinition at ih ⊢
    by_cases hc : c.category = "shaderref"
    · cases halt : d.alternative? target? c <;> simp [hc, halt, ih]
    · simp [hc, ih]

/-- The replacements are the redirections of all materials, by the paths of the references. -/
theorem replacements_eq : d.replacements target? =
    (d.root.children.flatMap fun e => (d.redirections target? e).map (e.name, ·)).map fun r =>
      (r.1 ++ "/" ++ r.2.1, r.2.2) := by
  unfold replacements materials elementsOf shaderRefs Element.childrenOf redirections
  induction d.root.children with
  | nil => rfl
  | cons e es ih =>
    by_cases he : e.category = "material"
    · rw [List.filter_cons_of_pos (by simp [he]), List.flatMap_cons, ih, filterMap_shaderRefs,
        List.flatMap_cons, List.map_append, if_pos he, List.map_map]
      rfl
    · rw [List.filter_cons_of_neg (by simp [he]), ih, List.flatMap_cons, if_neg he]
      rfl

/-- The change of one reference, given by its name and the name of its new definition, in a list of
elements. -/
def redirectNamed (es : List Element) (redirection : String × String) : List Element :=
  (Element.replaceFirst? (·.name = redirection.1)
    (fun c => some (c.setAttribute "nodedef" redirection.2)) es).getD es

/-- The change of one reference in its material. -/
def redirectChild (e : Element) (redirection : String × String) : Element :=
  { e with children := redirectNamed e.children redirection }

/-- The change of one reference in the material with a name. -/
def redirectBelow (es : List Element) (redirection : String × String × String) : List Element :=
  (Element.replaceFirst? (·.name = redirection.1)
    (fun e => some (redirectChild e redirection.2)) es).getD es

theorem redirectNamed_append {front back : List Element} {c : Element} {nodeDef : String}
    (hfront : ∀ x ∈ front, x.name ≠ c.name) :
    redirectNamed (front ++ c :: back) (c.name, nodeDef) =
      front ++ c.setAttribute "nodedef" nodeDef :: back := by
  unfold redirectNamed
  rw [Element.replaceFirst?_append (by simpa using hfront) (by simp)]
  rfl

theorem redirectBelow_append {front back : List Element} {redirection : String × String}
    (hfront : ∀ x ∈ front, x.name ≠ e.name) :
    redirectBelow (front ++ e :: back) (e.name, redirection) =
      front ++ redirectChild e redirection :: back := by
  unfold redirectBelow
  rw [Element.replaceFirst?_append (by simpa using hfront) (by simp)]
  rfl

/-- All redirections of an element, one after the other, come to one change of its references. -/
theorem foldl_redirectChild (h : (e.children.map (·.name)).Nodup) :
    (d.redirections target? e).foldl redirectChild e =
      withShaderRefs (d.redirected target?) e := by
  unfold redirections withShaderRefs
  by_cases he : e.category = "material"
  · have hchildren (rs : List (String × String)) (e : Element) :
        rs.foldl redirectChild e = { e with children := rs.foldl redirectNamed e.children } := by
      induction rs generalizing e with
      | nil => cases e; rfl
      | cons r rs ih => rw [List.foldl_cons, ih]; rfl
    have hone (c : Element) : (d.newDefinition target? c).foldl (·.setAttribute "nodedef" ·) c =
        if c.category = "shaderref" then d.redirected target? c else c := by
      unfold newDefinition redirected
      by_cases hc : c.category = "shaderref"
      · cases halt : d.alternative? target? c <;> simp [hc]
      · simp [hc]
    rw [if_pos he, if_pos he, hchildren,
      Element.foldl_changes (·.setAttribute "nodedef" ·) (fun _ _ => rfl)
        (fun _ _ _ _ => redirectNamed_append) _ h]
    simp only [hone]
  · rw [if_neg he, if_neg he, List.foldl_nil]

/-- The document with other elements at its top. -/
def withElements (d : Document) (es : List Element) : Document :=
  { d with root := { d.root with children := es } }

/-- A change that does nothing to an element may as well leave it as it is. -/
theorem getD_replaceFirst? {p : Element → Bool} {f : Element → Option Element}
    (es : List Element) :
    (Element.replaceFirst? p f es).getD es =
      (Element.replaceFirst? p (fun e => some ((f e).getD e)) es).getD es := by
  induction es with
  | nil => rfl
  | cons e es ih =>
    unfold Element.replaceFirst?
    by_cases he : p e = true
    · rw [if_pos he, if_pos he]
      cases f e <;> rfl
    · rw [if_neg he, if_neg he]
      have hcons (es? : Option (List Element)) : (es?.map (e :: ·)).getD (e :: es) =
          e :: es?.getD es := by cases es? <;> rfl
      rw [hcons, hcons, ih]

theorem getD_modifyAt? {name nodeDef : String} (e : Element) :
    (Element.modifyAt? (·.setAttribute "nodedef" nodeDef) [name] e).getD e =
      redirectChild e (name, nodeDef) := by
  have hchild : Element.modifyAt? (·.setAttribute "nodedef" nodeDef) [] =
      fun c => some (c.setAttribute "nodedef" nodeDef) := rfl
  unfold Element.modifyAt? redirectChild redirectNamed
  rw [hchild]
  dsimp only
  cases Element.replaceFirst? _ _ e.children with
  | none => cases e; rfl
  | some children => rfl

theorem redirect_eq {material name nodeDef : String} (hmaterial : '/' ∉ material.toList)
    (hne : material ≠ "") (hname : '/' ∉ name.toList) (hne' : name ≠ "") :
    d.redirect (material ++ "/" ++ name, nodeDef) =
      d.withElements (redirectBelow d.root.children (material, name, nodeDef)) := by
  have hpath : material ++ "/" ++ name ≠ "" := by
    intro heq
    have hlength := congrArg String.length heq
    simp [String.length_append] at hlength
  have htop : redirectBelow d.root.children (material, name, nodeDef) =
      (Element.replaceFirst? (·.name = material)
        (Element.modifyAt? (·.setAttribute "nodedef" nodeDef) [name]) d.root.children).getD
          d.root.children := by
    rw [getD_replaceFirst?]
    simp only [getD_modifyAt?]
    rfl
  unfold redirect modify? Element.modify?
  rw [if_neg hpath, Element.namesOf_pair hmaterial hne hname hne', Element.modifyAt?, htop]
  cases Element.replaceFirst? _ _ d.root.children with
  | none => cases d with | mk root _ => cases root; rfl
  | some children => rfl

/-- The references are found by their paths, one after the other. -/
theorem foldl_redirect (rs : List (String × String × String))
    (hmaterial : ∀ r ∈ rs, '/' ∉ r.1.toList ∧ r.1 ≠ "")
    (hname : ∀ r ∈ rs, '/' ∉ r.2.1.toList ∧ r.2.1 ≠ "") (d : Document) :
    (rs.map fun r => (r.1 ++ "/" ++ r.2.1, r.2.2)).foldl redirect d =
      d.withElements (rs.foldl redirectBelow d.root.children) := by
  induction rs generalizing d with
  | nil => cases d with | mk root _ => cases root; rfl
  | cons r rs ih =>
    obtain ⟨hm, hm'⟩ := hmaterial r List.mem_cons_self
    obtain ⟨hn, hn'⟩ := hname r List.mem_cons_self
    rw [List.map_cons, List.foldl_cons, redirect_eq hm hm' hn hn',
      ih (fun r hr => hmaterial r (List.mem_cons_of_mem _ hr))
        (fun r hr => hname r (List.mem_cons_of_mem _ hr))]
    rfl

/-- Redirecting changes the references to which an alternative was found, and nothing else. -/
theorem redirectUnimplemented_eq (h : d.WellNamed) :
    d.redirectUnimplemented target? = d.mapShaderRefs (d.redirected target?) := by
  have hsome : ∀ r ∈ d.root.children.flatMap fun e => (d.redirections target? e).map (e.name, ·),
      ∃ e ∈ d.root.children, e.name = r.1 ∧ ∃ c ∈ e.children, c.name = r.2.1 := by
    intro r hr
    obtain ⟨e, he, hr⟩ := List.mem_flatMap.mp hr
    obtain ⟨redirection, hmem, rfl⟩ := List.mem_map.mp hr
    rw [redirections] at hmem
    by_cases hcategory : e.category = "material"
    · rw [if_pos hcategory] at hmem
      obtain ⟨c, hc, hmem⟩ := List.mem_flatMap.mp hmem
      obtain ⟨nodeDef, -, rfl⟩ := List.mem_map.mp hmem
      exact ⟨e, he, rfl, c, hc, rfl⟩
    · rw [if_neg hcategory] at hmem
      cases hmem
  have hall : (d.root.children.map fun e => (d.redirections target? e).foldl redirectChild e) =
      d.root.children.map (withShaderRefs (d.redirected target?)) :=
    List.map_congr_left fun e he => foldl_redirectChild (h.children he).nodup
  rw [redirectUnimplemented, replacements_eq, foldl_redirect,
    Element.foldl_changes redirectChild (fun _ _ => rfl)
      (fun _ _ _ _ => redirectBelow_append) _ h.top.nodup, hall]
  · rfl
  · intro r hr
    obtain ⟨e, he, hname, -⟩ := hsome r hr
    exact hname ▸ ⟨h.top.plain e he, h.top.named e he⟩
  · intro r hr
    obtain ⟨e, he, -, c, hc, hname⟩ := hsome r hr
    exact hname ▸ ⟨(h.children he).plain c hc, (h.children he).named c hc⟩

/-! ## What the change leaves alone -/

section mapShaderRefs

variable {f : Element → Element}

theorem withShaderRefs_category (e : Element) : (withShaderRefs f e).category = e.category := by
  unfold withShaderRefs
  split <;> rfl

theorem withShaderRefs_name (e : Element) : (withShaderRefs f e).name = e.name := by
  unfold withShaderRefs
  split <;> rfl

theorem withShaderRefs_sourceUri (e : Element) : (withShaderRefs f e).sourceUri = e.sourceUri := by
  unfold withShaderRefs
  split <;> rfl

theorem filter_map_withShaderRefs (p : Element → Bool)
    (hp : ∀ e, p (withShaderRefs f e) = p e) (es : List Element) :
    (es.map (withShaderRefs f)).filter p = (es.filter p).map (withShaderRefs f) := by
  rw [List.filter_map]
  congr 1
  exact List.filter_congr fun e _ => hp e

/-- Only materials are changed. -/
theorem elementsOf_mapShaderRefs {category : String} (h : category ≠ "material") :
    (d.mapShaderRefs f).elementsOf category = d.elementsOf category := by
  have hfilter := filter_map_withShaderRefs (f := f) (·.category = category)
    (fun e => by rw [withShaderRefs_category]) d.root.children
  refine hfilter.trans ((List.map_congr_left fun e he => ?_).trans (List.map_id _))
  have hcategory : e.category = category := by simpa using (List.mem_filter.mp he).2
  exact if_neg (hcategory ▸ h)

theorem distinct_mapShaderRefs (h : Element.Distinct d.root.children) :
    Element.Distinct (d.mapShaderRefs f).root.children := by
  refine h.of_names ?_
  rw [mapShaderRefs, List.map_map]
  exact List.map_congr_left fun e _ => withShaderRefs_name e

theorem distinct_withShaderRefs (hf : ∀ c, (f c).name = c.name)
    (h : Element.Distinct e.children) : Element.Distinct (withShaderRefs f e).children := by
  unfold withShaderRefs
  split
  · refine h.of_names ?_
    rw [List.map_map]
    refine List.map_congr_left fun c _ => ?_
    rw [Function.comp_apply]
    split
    · exact hf c
    · rfl
  · exact h

theorem hasImplementation_mapShaderRefs (nodeDef : String) :
    (d.mapShaderRefs f).hasImplementation nodeDef target? =
      d.hasImplementation nodeDef target? := by
  unfold hasImplementation implementingGraph? nodeGraphs implementations
  rw [elementsOf_mapShaderRefs (by decide), elementsOf_mapShaderRefs (by decide)]

theorem nodeDefs_mapShaderRefs : (d.mapShaderRefs f).nodeDefs = d.nodeDefs :=
  elementsOf_mapShaderRefs (by decide)

theorem nodeDef?_mapShaderRefs (name : String) :
    (d.mapShaderRefs f).nodeDef? name = d.nodeDef? name := by
  rw [nodeDef?, nodeDefs_mapShaderRefs]
  rfl

theorem nodeDefOfShaderRef?_mapShaderRefs (ref : Element) :
    (d.mapShaderRefs f).nodeDefOfShaderRef? ref = d.nodeDefOfShaderRef? ref := by
  unfold nodeDefOfShaderRef? nodeDefsFor
  simp only [nodeDef?_mapShaderRefs, nodeDefs_mapShaderRefs]

theorem isDrawn_mapShaderRefs (ref : Element) :
    (d.mapShaderRefs f).isDrawn target? ref = d.isDrawn target? ref := by
  unfold isDrawn
  simp only [nodeDefOfShaderRef?_mapShaderRefs, hasImplementation_mapShaderRefs]

theorem alternative?_mapShaderRefs (ref : Element) :
    (d.mapShaderRefs f).alternative? target? ref = d.alternative? target? ref := by
  unfold alternative? nodeDefsFor
  simp only [nodeDefOfShaderRef?_mapShaderRefs, hasImplementation_mapShaderRefs,
    nodeDefs_mapShaderRefs]

theorem materials_mapShaderRefs :
    (d.mapShaderRefs f).materials = d.materials.map (withShaderRefs f) :=
  filter_map_withShaderRefs _ (fun e => by rw [withShaderRefs_category]) d.root.children

theorem shaderRefs_withShaderRefs (hf : ∀ c, (f c).category = c.category) (he : e ∈ d.materials) :
    shaderRefs (withShaderRefs f e) = (shaderRefs e).map f := by
  have hcategory : e.category = "material" := by simpa using (List.mem_filter.mp he).2
  have hchildren (cs : List Element) :
      (cs.map fun c => if c.category = "shaderref" then f c else c).filter
          (·.category = "shaderref") =
        (cs.filter (·.category = "shaderref")).map f := by
    induction cs with
    | nil => rfl
    | cons c cs ih => by_cases hc : c.category = "shaderref" <;> simp [hc, hf, ih]
  unfold shaderRefs Element.childrenOf withShaderRefs
  rw [if_pos hcategory]
  exact hchildren e.children

end mapShaderRefs

/-! ## What can be drawn -/

theorem redirected_category (c : Element) :
    (d.redirected target? c).category = c.category := by
  unfold redirected
  split <;> rfl

theorem redirected_name (c : Element) : (d.redirected target? c).name = c.name := by
  unfold redirected
  split <;> rfl

theorem filled?_setAttribute {key value : String} (hvalue : value ≠ "") :
    (e.setAttribute key value).filled? key = some value := by
  rw [Element.filled?, Element.attribute?, Element.setAttribute, Ordered.get?_put_self,
    Option.filter_some, if_pos (decide_eq_true hvalue)]

theorem WellNamed.nodeDefs (h : d.WellNamed) : Element.Distinct d.nodeDefs := h.top.filter _

/-- A redirected reference stands for the definition to which it was redirected. -/
theorem nodeDefOfShaderRef?_redirected (h : d.WellNamed) (hother : d.StandsIn target? ref other) :
    d.nodeDefOfShaderRef? (d.redirected target? ref) = some other := by
  have hdefs := h.nodeDefs
  have hmem := hother.mem_nodeDefs
  rw [redirected, alternative?_eq_some_iff.mpr hother, nodeDefOfShaderRef?,
    filled?_setAttribute (hdefs.named other hmem)]
  exact Element.find?_name hdefs.nodup hmem

/-- The references that can be drawn in the end are those that could be drawn, or for which there
was an alternative. -/
theorem isDrawn_redirected (h : d.WellNamed) (ref : Element) :
    d.isDrawn target? (d.redirected target? ref) =
      (d.isDrawn target? ref || (d.alternative? target? ref).isSome) := by
  cases halt : d.alternative? target? ref with
  | none => rw [redirected, halt, Option.isSome_none, Bool.or_false]
  | some other =>
    have hother := alternative?_eq_some_iff.mp halt
    rw [isDrawn, nodeDefOfShaderRef?_redirected h hother, Option.any_some, hother.implemented,
      Option.isSome_some, Bool.or_true]

/-- A reference is redirected once. -/
theorem alternative?_redirected (h : d.WellNamed) (ref : Element) :
    d.alternative? target? (d.redirected target? ref) = none := by
  cases halt : d.alternative? target? ref with
  | none => rw [redirected, halt, halt]
  | some other =>
    refine alternative?_of_isDrawn ?_
    rw [isDrawn_redirected h, halt, Option.isSome_some, Bool.or_true]

theorem replacements_mapShaderRefs (h : d.WellNamed) :
    (d.mapShaderRefs (d.redirected target?)).replacements target? = [] := by
  rw [replacements, materials_mapShaderRefs, List.flatMap_eq_nil_iff]
  intro e' he'
  obtain ⟨e, he, rfl⟩ := List.mem_map.mp he'
  rw [shaderRefs_withShaderRefs redirected_category he, List.filterMap_eq_nil_iff]
  intro ref' href'
  obtain ⟨ref, -, rfl⟩ := List.mem_map.mp href'
  rw [alternative?_mapShaderRefs, alternative?_redirected h]
  rfl

/-- There is one replacement for each reference with an alternative. -/
theorem length_replacements : (d.replacements target?).length =
    (d.materials.flatMap shaderRefs).countP fun ref => (d.alternative? target? ref).isSome := by
  unfold replacements
  induction d.materials with
  | nil => rfl
  | cons e es ih =>
    have hone : ((shaderRefs e).filterMap fun ref => (d.alternative? target? ref).map fun nodeDef =>
          (e.name ++ "/" ++ ref.name, nodeDef.name)).length =
        (shaderRefs e).countP fun ref => (d.alternative? target? ref).isSome := by
      rw [List.length_filterMap_eq_countP]
      exact List.countP_congr fun ref _ => by rw [Option.isSome_map]
    rw [List.flatMap_cons, List.length_append, hone, ih, List.flatMap_cons, List.countP_append]

/-- The shader references that are found to be drawable in the end. -/
theorem renderableShaderRefs_mapShaderRefs (h : d.WellNamed) :
    (d.mapShaderRefs (d.redirected target?)).renderableShaderRefs target? =
      (d.materials.filter (·.sourceUri.isNone)).flatMap fun material =>
        ((shaderRefs material).filter fun ref =>
          d.isDrawn target? ref || (d.alternative? target? ref).isSome).map fun ref =>
            ⟨Element.joinPath material.name ref.name, .shaderRef⟩ := by
  have hauthored : (d.mapShaderRefs (d.redirected target?)).materials.filter (·.sourceUri.isNone) =
      (d.materials.filter (·.sourceUri.isNone)).map (withShaderRefs (d.redirected target?)) := by
    rw [materials_mapShaderRefs]
    exact filter_map_withShaderRefs _ (fun e => by rw [withShaderRefs_sourceUri]) _
  unfold renderableShaderRefs
  rw [hauthored, List.flatMap_map]
  refine List.flatMap_congr fun e he => ?_
  rw [shaderRefs_withShaderRefs redirected_category (List.mem_filter.mp he).1, List.filter_map,
    List.map_map, withShaderRefs_name]
  have hdrawn : ((fun ref => (d.mapShaderRefs (d.redirected target?)).isDrawn target? ref) ∘
      d.redirected target?) =
        fun ref => d.isDrawn target? ref || (d.alternative? target? ref).isSome := by
    funext ref
    rw [Function.comp_apply, isDrawn_mapShaderRefs, isDrawn_redirected h]
  have hpath : ((fun ref => (⟨Element.joinPath e.name ref.name, .shaderRef⟩ : Renderable)) ∘
      d.redirected target?) = fun ref => ⟨Element.joinPath e.name ref.name, .shaderRef⟩ := by
    funext ref
    rw [Function.comp_apply, redirected_name]
  rw [hpath, ← hdrawn]
  rfl

theorem filter_renderables : (d.renderables target?).filter (·.kind = .shaderRef) =
    d.renderableShaderRefs target? := by
  have hrefs : (d.renderableShaderRefs target?).filter (·.kind = .shaderRef) =
      d.renderableShaderRefs target? := by
    refine List.filter_eq_self.mpr fun r hr => ?_
    obtain ⟨material, -, hr⟩ := List.mem_flatMap.mp hr
    obtain ⟨ref, -, rfl⟩ := List.mem_map.mp hr
    rfl
  have houtputs : d.renderableOutputs.filter (·.kind = .shaderRef) = [] := by
    refine List.filter_eq_nil_iff.mpr fun r hr => ?_
    obtain ⟨graph, -, hr⟩ := List.mem_flatMap.mp hr
    obtain ⟨output, -, rfl⟩ := List.mem_map.mp hr
    simp
  rw [renderables, List.filter_append, hrefs, houtputs, List.append_nil]

/-! ## Resolution -/

variable {target : Target}

/-- The path from a material to one of its shader references leads to it. -/
theorem element?_shaderRef {m : Element} (htop : Element.Distinct d.root.children)
    (hchildren : Element.Distinct m.children) (hm : m ∈ d.materials) (href : ref ∈ shaderRefs m) :
    d.element? (Element.joinPath m.name ref.name) = some ref := by
  have hm : m ∈ d.root.children := (List.mem_filter.mp hm).1
  have href : ref ∈ m.children := (List.mem_filter.mp href).1
  have hpath : Element.joinPath m.name ref.name = m.name ++ "/" ++ ref.name :=
    if_neg (htop.named m hm)
  have hne : m.name ++ "/" ++ ref.name ≠ "" := by
    intro heq
    have hlength := congrArg String.length heq
    simp [String.length_append] at hlength
  rw [hpath, element?, if_neg hne, Element.descendant?, Element.namesOf_pair (htop.plain m hm)
    (htop.named m hm) (hchildren.plain ref href) (hchildren.named ref href)]
  simp only [Element.follow?, Element.child?, Element.find?_name htop.nodup hm, Option.bind_some,
    Element.find?_name hchildren.nodup href]

/-- A shader reference that is found to be drawable resolves. -/
theorem exists_resolveElement {m : Element} (htop : Element.Distinct d.root.children)
    (hchildren : Element.Distinct m.children) (hm : m ∈ d.materials) (href : ref ∈ shaderRefs m)
    (hdrawn : d.isDrawn (some target) ref = true) :
    ∃ i, d.resolveElement (Element.joinPath m.name ref.name) target = .ok i := by
  obtain ⟨nodeDef, hdef, himpl⟩ : ∃ nodeDef, d.nodeDefOfShaderRef? ref = some nodeDef ∧
      d.hasImplementation nodeDef.name (some target) = true := by
    rw [isDrawn, Option.any_eq_true] at hdrawn
    exact hdrawn
  have hfound : (d.nodeDef? nodeDef.name).isSome := by
    rw [nodeDef?, List.find?_isSome]
    exact ⟨nodeDef, mem_nodeDefs_of_shaderRef hdef, by simp⟩
  have hcategory : ref.category = "shaderref" := by simpa using (List.mem_filter.mp href).2
  have hname : d.nodeDefName (Element.joinPath m.name ref.name) = .ok nodeDef.name := by
    simp only [nodeDefName, element?_shaderRef htop hchildren hm href, hcategory, if_true, hdef]
  rw [resolveElement, hname]
  exact (hasImplementation_iff hfound).mp himpl

/-- Redirecting changes the references whose definition has no implementation while another one for
the same nodes does; each gets the last of these. Nothing else changes, a second time nothing
changes at all, and then the shader references to be drawn are those that had an implementation or
could be redirected to one. All of these resolve. -/
theorem renderables_redirectUnimplemented (h : d.WellNamed) (target? : Option Target) :
    (∀ ref other, d.alternative? target? ref = some other ↔ d.StandsIn target? ref other) ∧
      d.redirectUnimplemented target? = d.mapShaderRefs (d.redirected target?) ∧
      (d.replacements target?).length = ((d.materials.flatMap shaderRefs).countP fun ref =>
        (d.alternative? target? ref).isSome) ∧
      (d.redirectUnimplemented target?).replacements target? = [] ∧
      (d.redirectUnimplemented target?).redirectUnimplemented target? =
        d.redirectUnimplemented target? ∧
      (((d.redirectUnimplemented target?).renderables target?).filter (·.kind = .shaderRef) =
        (d.materials.filter (·.sourceUri.isNone)).flatMap fun material =>
          ((shaderRefs material).filter fun ref =>
            d.isDrawn target? ref || (d.alternative? target? ref).isSome).map fun ref =>
              ⟨Element.joinPath material.name ref.name, .shaderRef⟩) ∧
      ∀ target, target? = some target →
        ∀ r ∈ (d.redirectUnimplemented target?).renderables target?, r.kind = .shaderRef →
          ∃ i, (d.redirectUnimplemented target?).resolveElement r.path target = .ok i := by
  have hnone : (d.mapShaderRefs (d.redirected target?)).replacements target? = [] :=
    replacements_mapShaderRefs h
  refine ⟨fun ref other => alternative?_eq_some_iff, redirectUnimplemented_eq h,
    length_replacements, ?_, ?_, ?_, ?_⟩
  · rw [redirectUnimplemented_eq h, hnone]
  · rw [redirectUnimplemented_eq h, redirectUnimplemented, hnone, List.foldl_nil]
  · rw [redirectUnimplemented_eq h, filter_renderables, renderableShaderRefs_mapShaderRefs h]
  · rintro target rfl r hr hkind
    rw [redirectUnimplemented_eq h] at hr ⊢
    have hr : r ∈ (d.mapShaderRefs (d.redirected (some target))).renderableShaderRefs
        (some target) := by
      rw [← filter_renderables]
      exact List.mem_filter.mpr ⟨hr, decide_eq_true hkind⟩
    obtain ⟨m', hm', hr⟩ := List.mem_flatMap.mp hr
    obtain ⟨ref, href, rfl⟩ := List.mem_map.mp hr
    obtain ⟨href, hdrawn⟩ := List.mem_filter.mp href
    have hm' := (List.mem_filter.mp hm').1
    obtain ⟨m, hm, rfl⟩ : ∃ m ∈ d.materials,
        withShaderRefs (d.redirected (some target)) m = m' := by
      rw [materials_mapShaderRefs] at hm'
      exact List.mem_map.mp hm'
    exact exists_resolveElement (distinct_mapShaderRefs h.top)
      (distinct_withShaderRefs redirected_name (h.children (List.mem_filter.mp hm).1)) hm' href
      hdrawn

/-- A material whose shader reference names a definition without an implementation. -/
def oldReference : Document where
  root := {
    category := rootCategory
    name := ""
    children := [
      { category := "nodedef", name := "ND_old", attributes := [("node", "surf")] },
      { category := "nodedef", name := "ND_new", attributes := [("node", "surf")] },
      { category := "implementation", name := "IM_new"
        attributes := [("nodedef", "ND_new"), ("language", "genglsl")] },
      { category := "material", name := "M"
        children := [
          { category := "shaderref", name := "sr", attributes := [("nodedef", "ND_old")] }] }] }

/-- The reference is redirected, drawn, and resolved. -/
theorem renderables_redirectUnimplemented_old : oldReference.WellNamed ∧
    (oldReference.replacements (some ⟨"genglsl", "glsl"⟩)).length = 1 ∧
    (((oldReference.redirectUnimplemented (some ⟨"genglsl", "glsl"⟩)).renderables
      (some ⟨"genglsl", "glsl"⟩)).filter (·.kind = .shaderRef) = [⟨"M/sr", .shaderRef⟩]) ∧
    ∃ i, (oldReference.redirectUnimplemented (some ⟨"genglsl", "glsl"⟩)).resolveElement "M/sr"
      ⟨"genglsl", "glsl"⟩ = .ok i := by
  have hnames : oldReference.WellNamed := by
    have hsiblings : ∀ e ∈ oldReference.root.preorder, (e.children.map (·.name)).Nodup ∧
        ∀ c ∈ e.children, c.name ≠ "" ∧ '/' ∉ c.name.toList := by decide +kernel
    exact fun e he => ⟨(hsiblings e he).1, fun c hc => ((hsiblings e he).2 c hc).1,
      fun c hc => ((hsiblings e he).2 c hc).2⟩
  obtain ⟨-, -, hcount, -, -, hdrawn, hresolves⟩ :=
    renderables_redirectUnimplemented hnames (some ⟨"genglsl", "glsl"⟩)
  have hlist : ((oldReference.redirectUnimplemented (some ⟨"genglsl", "glsl"⟩)).renderables
      (some ⟨"genglsl", "glsl"⟩)).filter (·.kind = .shaderRef) = [⟨"M/sr", .shaderRef⟩] := by
    rw [hdrawn]
    decide +kernel
  refine ⟨hnames, ?_, hlist, ?_⟩
  · rw [hcount]
    decide +kernel
  · have hmem : (⟨"M/sr", .shaderRef⟩ : Renderable) ∈
        ((oldReference.redirectUnimplemented (some ⟨"genglsl", "glsl"⟩)).renderables
          (some ⟨"genglsl", "glsl"⟩)).filter (·.kind = .shaderRef) := by
      rw [hlist]
      exact List.mem_singleton_self _
    exact hresolves _ rfl _ (List.mem_filter.mp hmem).1 rfl

end MaterialViewer.Document
