import Mathlib.Data.List.Range
import MaterialViewer.Lighting.Rig
import MaterialViewer.Proofs.Document.Places
import MaterialViewer.Proofs.Shader.Inclusions
import MaterialViewer.Proofs.Shader.Parts

/-!
# Proofs: telling the kinds of lights apart

The kinds of the lights of a document are numbered from one, in the order in which the lights first
use them, so that lights of one number are of one kind. The function by which a shader evaluates
lights has a branch for each number whose kind is implemented by a function of a file, in the order
of the numbers, and the file is taken over before.
-/

namespace MaterialViewer

theorem Ordered.put_of_get? {κ α : Type} [DecidableEq κ] {k : κ} {v : α} {entries : List (κ × α)}
    (h : get? k entries = some v) : put k v entries = entries := by
  induction entries with
  | nil => cases h
  | cons entry rest ih =>
    rw [get?] at h
    rw [put]
    split at h
    · rename_i hk
      rw [if_pos hk, ← hk, ← Option.some.inj h]
    · rename_i hk
      rw [if_neg hk, ih h]

namespace LightRig

/-- Whether lights are looked for at an element, or below it if it is no light. -/
def isOpen (e : Element) : Bool := e.category ≠ "nodedef" && !isLight e

/-- Whether a place is one of a light: no element above it is a light or a node definition. -/
def holdsLight (p : Element.Place) : Bool :=
  p.element.category ≠ "nodedef" && isLight p.element && p.above.all isOpen

/-- The places of the lights of a document, in the order of the document. -/
def places (d : Document) : List Element.Place :=
  (Element.placesBelow "" [] d.elements).filter holdsLight

/-- There are no lights below an element at which they are not looked for. -/
theorem filter_placesBelow_of_not_isOpen {path : String} {e : Element} {above es : List Element}
    (h : isOpen e = false) : (Element.placesBelow path (e :: above) es).filter holdsLight = [] := by
  refine Element.filter_placesBelow_eq_nil fun p hmem => ?_
  have habove : p.above.all isOpen = false := List.all_eq_false.mpr ⟨e, hmem, by simp [h]⟩
  rw [holdsLight, habove, Bool.and_false]

mutual

theorem lightsAt_eq (path : String) {above : List Element} (habove : above.all isOpen = true) :
    ∀ e : Element, lightsAt path e =
      ((Element.placesAt path above e).filter holdsLight).map fun p => (p.path, p.element)
  | ⟨category, name, attributes, children, sourceUri⟩ => by
    rw [lightsAt, Element.placesAt]
    by_cases hdefinition : category = "nodedef"
    · rw [if_pos hdefinition, List.filter_cons_of_neg (by simp [holdsLight, hdefinition]),
        filter_placesBelow_of_not_isOpen (by simp [isOpen, hdefinition])]
      rfl
    rw [if_neg hdefinition]
    by_cases hlight : isLight ⟨category, name, attributes, children, sourceUri⟩ = true
    · rw [if_pos hlight, List.filter_cons_of_pos (by simp [holdsLight, hdefinition, hlight, habove]),
        filter_placesBelow_of_not_isOpen (by simp [isOpen, hlight])]
      rfl
    · have hopen : isOpen ⟨category, name, attributes, children, sourceUri⟩ = true := by
        simp [isOpen, hdefinition, hlight]
      rw [if_neg hlight, List.filter_cons_of_neg (by simp [holdsLight, hlight])]
      exact lightsBelow_eq path (by rw [List.all_cons, hopen, habove]; rfl) children

/-- The lights that are found are those of all places, in the order of the document. -/
theorem lightsBelow_eq (path : String) {above : List Element} (habove : above.all isOpen = true) :
    ∀ es : List Element, lightsBelow path es =
      ((Element.placesBelow path above es).filter holdsLight).map fun p => (p.path, p.element)
  | [] => rfl
  | e :: es => by
    rw [lightsBelow, Element.placesBelow, List.filter_append, List.map_append,
      lightsAt_eq _ habove e, lightsBelow_eq _ habove es]

end

/-! ## Numbers of kinds -/

/-- The node definitions that the lights of a document use, as often as they use them. -/
def uses (d : Document) : List String :=
  (places d).filterMap fun p => (d.nodeDefOfNode? p.element).map (·.name)

/-- Definitions with numbers from one, in the order in which they first stand in a list. -/
def numbered (names : List String) : List (String × Nat) := names.eraseDups.zipIdx 1

theorem nodup_eraseDups : ∀ names : List String, names.eraseDups.Nodup
  | [] => by rw [List.eraseDups_nil]; exact List.nodup_nil
  | name :: names => by
    rw [List.eraseDups_cons, List.nodup_cons]
    refine ⟨fun hmem => ?_, nodup_eraseDups _⟩
    simpa using List.mem_eraseDups.mp hmem
termination_by names => names.length
decreasing_by
  exact Nat.lt_succ_of_le (List.length_filter_le _ _)

theorem map_fst_numbered (names : List String) : (numbered names).map (·.1) = names.eraseDups :=
  List.zipIdx_map_fst 1 _

theorem map_snd_numbered (names : List String) :
    (numbered names).map (·.2) = List.range' 1 names.eraseDups.length :=
  List.zipIdx_map_snd 1 _

theorem numbered_append_of_mem {names : List String} {name : String} (h : name ∈ names) :
    numbered (names ++ [name]) = numbered names := by
  have hnone : [name].removeAll names = [] := by simp [List.removeAll, h]
  rw [numbered, List.eraseDups_append, hnone, List.eraseDups_nil, List.append_nil, numbered]

theorem numbered_append_of_not_mem {names : List String} {name : String} (h : name ∉ names) :
    numbered (names ++ [name]) = numbered names ++ [(name, (numbered names).length + 1)] := by
  have hone : [name].removeAll names = [name] := by simp [List.removeAll, h]
  have hself : [name].eraseDups = [name] := by rw [List.eraseDups_cons]; rfl
  rw [numbered, List.eraseDups_append, hone, hself, List.zipIdx_append, numbered,
    List.length_zipIdx, Nat.add_comm 1]
  rfl

theorem mem_numbered_inj {names : List String} {name name' : String} {number number' : Nat}
    (h : (name, number) ∈ numbered names) (h' : (name', number') ∈ numbered names) :
    number = number' ↔ name = name' := by
  have hnames : ((numbered names).map (·.1)).Nodup := by
    rw [map_fst_numbered]
    exact nodup_eraseDups names
  have hnumbers : ((numbered names).map (·.2)).Nodup := by
    rw [map_snd_numbered]
    exact List.nodup_range'
  constructor
  · rintro rfl
    exact congrArg Prod.fst (List.inj_on_of_nodup_map hnumbers h h' rfl)
  · rintro rfl
    exact congrArg Prod.snd (List.inj_on_of_nodup_map hnames h h' rfl)

/-! ## The rig -/

/-- The node definitions of lights, as often as the lights use them. -/
def usedBy (d : Document) (found : List (String × Element)) : List String :=
  found.filterMap fun light => (d.nodeDefOfNode? light.2).map (·.name)

/-- What a light is, but for its number. -/
def described? (d : Document) (found : String × Element) :
    Option (String × String × List (String × Value)) :=
  (d.nodeDefOfNode? found.2).map fun nodeDef =>
    (found.1, nodeDef.name, inputValues found.2 nodeDef)

/-- A rig holds the lights that were found, with the numbers of their kinds. -/
structure Holds (d : Document) (found : List (String × Element)) (rig : LightRig) : Prop where
  kinds : rig.kinds.entries = numbered (usedBy d found)
  lights : (rig.lights.map fun l => (l.path, l.nodeDef, l.inputs)) = found.filterMap (described? d)
  numbers : ∀ l ∈ rig.lights, (l.nodeDef, l.kind) ∈ rig.kinds.entries

/-- A light with a definition is added with a number of the definition. -/
theorem Holds.append {d : Document} {found : List (String × Element)} {rig : LightRig}
    (h : Holds d found rig) {light : String × Element} {nodeDef : Element}
    (hdefinition : d.nodeDefOfNode? light.2 = some nodeDef) {kinds : LightKinds} {kind : Nat}
    (hkinds : kinds.entries = numbered (usedBy d found ++ [nodeDef.name]))
    (hkept : rig.kinds.entries ⊆ kinds.entries) (hkind : (nodeDef.name, kind) ∈ kinds.entries) :
    Holds d (found ++ [light])
      { lights := rig.lights ++
          [{ path := light.1, nodeDef := nodeDef.name, kind
             inputs := inputValues light.2 nodeDef }]
        kinds } where
  kinds := by
    rw [hkinds, usedBy, usedBy, List.filterMap_append, List.filterMap_cons, hdefinition]
    rfl
  lights := by
    rw [List.map_append, h.lights, List.filterMap_append, List.filterMap_cons, described?,
      hdefinition]
    rfl
  numbers := fun l hl => by
    rcases List.mem_append.mp hl with hl | hl
    · exact hkept (h.numbers l hl)
    · obtain rfl := List.mem_singleton.mp hl
      exact hkind

theorem Holds.addLight {d : Document} {found : List (String × Element)} {rig : LightRig}
    (h : Holds d found rig) (light : String × Element) :
    Holds d (found ++ [light]) (rig.addLight d light) := by
  unfold LightRig.addLight
  split
  · rename_i hdefinition
    refine ⟨?_, ?_, h.numbers⟩
    · rw [h.kinds, usedBy, usedBy, List.filterMap_append, List.filterMap_cons, hdefinition]
      exact congrArg numbered (List.append_nil _).symm
    · rw [h.lights, List.filterMap_append, List.filterMap_cons, described?, hdefinition]
      exact (List.append_nil _).symm
  · rename_i nodeDef hdefinition
    have hknown : rig.kinds.number? nodeDef.name = none ↔ nodeDef.name ∉ usedBy d found := by
      rw [LightKinds.number?, Ordered.get?_eq_none_iff, h.kinds, map_fst_numbered,
        List.mem_eraseDups]
    cases hnumber : rig.kinds.number? nodeDef.name with
    | none =>
      have hentries : (rig.kinds.bind nodeDef.name (rig.kinds.entries.length + 1)).entries =
          rig.kinds.entries ++ [(nodeDef.name, rig.kinds.entries.length + 1)] :=
        Ordered.put_of_get?_eq_none hnumber _
      refine h.append hdefinition ?_ ?_ ?_
      · rw [Option.getD_none, hentries, numbered_append_of_not_mem (hknown.mp hnumber), h.kinds]
      · rw [Option.getD_none, hentries]
        exact List.subset_append_left _ _
      · rw [Option.getD_none, hentries]
        exact List.mem_append_right _ (List.mem_singleton_self _)
    | some number =>
      have hmem : nodeDef.name ∈ usedBy d found := by
        by_contra hnew
        exact Option.some_ne_none _ (hnumber.symm.trans (hknown.mpr hnew))
      have hentries : (rig.kinds.bind nodeDef.name number).entries = rig.kinds.entries :=
        Ordered.put_of_get? hnumber
      refine h.append hdefinition ?_ ?_ ?_
      · rw [Option.getD_some, hentries, numbered_append_of_mem hmem, h.kinds]
      · rw [Option.getD_some, hentries]
        exact List.Subset.refl _
      · rw [Option.getD_some, hentries]
        exact Ordered.mem_of_get? hnumber

theorem foldl_addLight_holds (d : Document) (found : List (String × Element)) :
    Holds d found (found.foldl (addLight d) {}) := by
  induction found using List.reverseRecOn with
  | nil => exact ⟨rfl, rfl, fun l hl => nomatch hl⟩
  | append_singleton found light ih =>
    rw [List.foldl_append]
    exact ih.addLight light

/-- The lights of a document, in the order of the document, and the numbers of their kinds. -/
theorem ofDocument_holds (d : Document) :
    Holds d ((places d).map fun p => (p.path, p.element)) (ofDocument d) := by
  have h := foldl_addLight_holds d (lightsBelow "" d.elements)
  have hopen : ([] : List Element).all isOpen = true := rfl
  rw [lightsBelow_eq "" hopen] at h
  rw [ofDocument, lightsBelow_eq "" hopen]
  exact h

end LightRig

/-! ## Branches -/

namespace LightKinds

variable {k : LightKinds} {d : Document} {target : Target}

theorem mem_branches_iff {number : Nat} {function : String} :
    (number, function) ∈ k.branches d target ↔
      ∃ nodeDef name file code?, (nodeDef, number) ∈ k.entries ∧
        d.resolve nodeDef target = .ok (.source name (some file) (some function) code?) := by
  unfold branches
  rw [List.mem_map]
  constructor
  · rintro ⟨⟨number', name, file, function'⟩, hmem, heq⟩
    obtain ⟨rfl, rfl⟩ := Prod.mk.inj heq
    obtain ⟨nodeDef, code?, h⟩ := mem_evaluators_iff.mp hmem
    exact ⟨nodeDef, name, file, code?, h⟩
  · rintro ⟨nodeDef, name, file, code?, h⟩
    exact ⟨_, mem_evaluators_iff.mpr ⟨nodeDef, code?, h⟩, rfl⟩

/-- The branches are in the order of the kinds. -/
theorem map_fst_branches_sublist (k : LightKinds) (d : Document) (target : Target) :
    ((k.branches d target).map (·.1)).Sublist (k.entries.map (·.2)) := by
  unfold branches evaluators
  induction k.entries with
  | nil => exact List.Sublist.refl _
  | cons entry rest ih =>
    rw [List.filterMap_cons]
    split
    · exact ih.cons _
    · rename_i found hfound
      obtain ⟨evaluator, -, rfl⟩ := Option.map_eq_some_iff.mp hfound
      exact ih.cons_cons _

end LightKinds

/-- In a lit shader that is generated for the kinds of the lights of a document, the function that
evaluates lights has one branch for each number whose definition is implemented by a function of a
file, in the order of the numbers, and the files of these functions stand before it. The numbers are
those from one, in the order in which the lights of the document first use the definitions, and two
lights have one number exactly if they have one definition. -/
theorem generate_dispatch {d source : Document} {gen : ShaderGenerator} {files : FileTree}
    {path : String} {options : GeneratorOptions} {shader : GeneratedShader}
    (hkinds : gen.lights = (LightRig.ofDocument d).kinds)
    (hproper : Path.IsProper files.workingDirectory)
    (h : gen.generate source files path options = .ok shader) (hlit : 0 < shader.maxLights) :
    let rig := LightRig.ofDocument d
    let branches := rig.kinds.branches source options.target
    rig.kinds.entries = LightRig.numbered (LightRig.uses d) ∧
    rig.kinds.entries.map (·.2) = List.range' 1 rig.kinds.entries.length ∧
    (rig.lights.map fun l => (l.path, l.nodeDef, l.inputs)) =
      (LightRig.places d).filterMap (fun p => LightRig.described? d (p.path, p.element)) ∧
    (∀ l ∈ rig.lights, ∀ l' ∈ rig.lights, l.kind = l'.kind ↔ l.nodeDef = l'.nodeDef) ∧
    (branches.map (·.1)).Pairwise (· < ·) ∧
    (∀ number function, (number, function) ∈ branches ↔
      ∃ nodeDef name file code?, (nodeDef, number) ∈ rig.kinds.entries ∧
        source.resolve nodeDef options.target =
          .ok (.source name (some file) (some function) code?)) ∧
    ∃ (parts : ShaderParts) (lights others : List Inclusion),
      shader.pixelSource = parts.declarationsText ++
        (inclusionsText lights ++ LightKinds.dispatcherText branches ++ inclusionsText others) ++
        ShaderParts.mainText parts.pixelBody ∧
      ∀ nodeDef number name file function code?, (nodeDef, number) ∈ rig.kinds.entries →
        source.resolve nodeDef options.target =
          .ok (.source name (some file) (some function) code?) →
        ∃ p, ∃ i ∈ lights, Requirement.Finds files options.sourcePath ⟨name, file⟩ p i.text ∧
          files.identity i.path = files.identity p := by
  intro rig branches
  have hrig := LightRig.ofDocument_holds d
  have hused : LightRig.usedBy d ((LightRig.places d).map fun p => (p.path, p.element)) =
      LightRig.uses d := by
    rw [LightRig.usedBy, List.filterMap_map]
    rfl
  have hentries : rig.kinds.entries = LightRig.numbered (LightRig.uses d) := by
    rw [← hused]
    exact hrig.kinds
  have hnumbers : rig.kinds.entries.map (·.2) = List.range' 1 rig.kinds.entries.length := by
    rw [hentries, LightRig.map_snd_numbered, LightRig.numbered, List.length_zipIdx]
  refine ⟨hentries, hnumbers, ?_, fun l hl l' hl' => ?_, ?_,
    fun _ _ => LightKinds.mem_branches_iff, ?_⟩
  · rw [hrig.lights, List.filterMap_map]
    rfl
  · have hmem := hrig.numbers l hl
    have hmem' := hrig.numbers l' hl'
    rw [hrig.kinds] at hmem hmem'
    exact LightRig.mem_numbered_inj hmem hmem'
  · have hsublist := LightKinds.map_fst_branches_sublist rig.kinds source options.target
    rw [hnumbers] at hsublist
    exact List.Pairwise.sublist hsublist List.pairwise_lt_range'
  · obtain ⟨graph, root, nodes, final, parts, lights, others, -, -, hparts, hmax, hsource, htakes⟩ :=
      generate_takesSources hproper h
    have hroot : root.type = .closure .surfaceShader := by
      by_contra hroot
      rw [hmax, (parts_lights hparts).2, decide_eq_false hroot] at hlit
      exact absurd hlit (by simp)
    have hcode := htakes.code_eq
    rw [if_pos hroot, hkinds] at hcode
    refine ⟨parts, lights, others, by rw [hsource, hcode], ?_⟩
    intro nodeDef number name file function code? hentry hresolve
    have hneeds : gen.lights.Requires source options.target ⟨name, file⟩ :=
      ⟨nodeDef, number, function, code?, hkinds ▸ hentry, hresolve⟩
    exact htakes.lights_complete hroot ⟨name, file⟩ hneeds

namespace LampsSample

open Graph.Sample in
/-- A surface, and lights of three kinds, one of them in a group; the second kind has no
implementation. -/
def document : Document :=
  (request
    [definition "lamp" "lightshader" [], SharedSample.fileImplementation "lamp" "shared.glsl",
      definition "spot" "lightshader" [],
      definition "sun" "lightshader" [], SharedSample.fileImplementation "sun" "./shared.glsl",
      definition "paint" "surfaceshader" [],
      implementation "paint" "surfaceshader(vec3(0.0), vec3(0.0))",
      node "lamp" "lamp1" "lightshader" [],
      { category := "nodegraph", name := "group"
        children := [node "spot" "spot1" "lightshader" []] },
      node "lamp" "lamp2" "lightshader" [], node "sun" "sun1" "lightshader" [],
      node "paint" "top" "surfaceshader" []]).document

/-- A generator with the kinds of these lights. -/
def generator : ShaderGenerator := { lights := (LightRig.ofDocument document).kinds }

end LampsSample

open LampsSample SharedSample in
theorem generate_dispatch_lamps :
    (LightRig.ofDocument LampsSample.document).kinds.entries =
      [("ND_lamp", 1), ("ND_spot", 2), ("ND_sun", 3)] ∧
    Path.IsProper files.workingDirectory ∧
    ∃ shader, LampsSample.generator.generate LampsSample.document files "top" {} = .ok shader ∧
      0 < shader.maxLights ∧
      ∃ (parts : ShaderParts) (lights others : List Inclusion), shader.pixelSource =
        parts.declarationsText ++ (inclusionsText lights ++
          LightKinds.dispatcherText [(1, "lamp"), (3, "sun")] ++ inclusionsText others) ++
        ShaderParts.mainText parts.pixelBody := by
  have hproper : Path.IsProper files.workingDirectory := by decide
  have heval : (LampsSample.generator.generate LampsSample.document files "top"
      {}).toOption.map (·.maxLights) = some 3 := by decide +kernel
  obtain ⟨shader, hshader, hmax⟩ := Graph.Sample.exists_ok_of_map heval
  have hlit : 0 < shader.maxLights := by rw [hmax]; decide
  have hbranches : (LightRig.ofDocument LampsSample.document).kinds.branches LampsSample.document
      ({} : GeneratorOptions).target = [(1, "lamp"), (3, "sun")] := by decide +kernel
  have hkinds : LampsSample.generator.lights =
      (LightRig.ofDocument LampsSample.document).kinds := rfl
  obtain ⟨-, -, -, -, -, -, parts, lights, others, hsource, -⟩ :=
    generate_dispatch hkinds hproper hshader hlit
  rw [hbranches] at hsource
  exact ⟨by decide +kernel, hproper, shader, hshader, hlit, parts, lights, others, hsource⟩

end MaterialViewer
