import Mathlib.Data.List.Nodup
import MaterialViewer.Proofs.Files.Location
import MaterialViewer.Proofs.Graph.Sample
import MaterialViewer.Proofs.Shader.Declarations
import MaterialViewer.Proofs.Shader.Sources

/-!
# Proofs: the files that a shader takes over

The function definitions of a shader are the texts of the files that its implementations need, those
of lights before the function that evaluates lights, those of nodes behind it. Each implementation
that needs a file finds it, with a text, and each file is taken over once, at the first place where
it is needed, however its name is written there.
-/

namespace MaterialViewer

open CodeBuffer

/-! ## Files -/

/-- Two names of one file lead to one text. -/
theorem FileTree.readText?_eq_of_identity_eq {files : FileTree} {p q : Path}
    (hproper : Path.IsProper files.workingDirectory) (hp : files.exists? p = true)
    (hq : files.exists? q = true) (h : files.identity p = files.identity q) :
    files.readText? p = files.readText? q := by
  obtain ⟨l, hl⟩ := Option.isSome_iff_exists.mp hp
  obtain ⟨l', hl'⟩ := Option.isSome_iff_exists.mp hq
  have hlocations : l = l' := by
    have hofLocation : Path.ofLocation l = Path.ofLocation l' := by
      simpa only [identity, canonical?, hl, hl', Option.map_some, Option.getD_some] using h
    obtain ⟨-, rfl⟩ := eq_of_resolve hl
    obtain ⟨-, rfl⟩ := eq_of_resolve hl'
    rw [← (hproper.lexicalLocation p).lexicalLocation_ofLocation [], hofLocation,
      (hproper.lexicalLocation q).lexicalLocation_ofLocation]
  rw [readText?, readBytes?, hl, readText?, readBytes?, hl', hlocations]

theorem SearchPath.exists?_of_findExisting? {s : SearchPath} {files : FileTree} {name path : Path}
    (h : s.findExisting? files name = some path) : files.exists? path = true := by
  unfold findExisting? at h
  split at h
  · cases h
  · split at h
    · split at h
      · rename_i hexists
        exact Option.some.inj h ▸ hexists
      · cases h
    · exact List.find?_some h

/-! ## Taking over files -/

/-- A file that an implementation needs, by the name that it writes. -/
structure Requirement where
  /-- The name of the implementation. -/
  implementation : String
  /-- The name of the file. -/
  file : String

/-- A file that was taken over. -/
structure Inclusion where
  /-- The name by which it was needed first. -/
  file : String
  /-- The path under which it was found. -/
  path : Path
  /-- Its text. -/
  text : String

/-- The text of a shader for a file that was taken over. -/
def Inclusion.code (i : Inclusion) : String :=
  linesText 0 ["// Included from " ++ i.file] ++ blockText i.text ++ "\n"

/-- The text of a shader for files that were taken over one after the other. -/
def inclusionsText (is : List Inclusion) : String := String.join (is.map Inclusion.code)

theorem inclusionsText_append (is is' : List Inclusion) :
    inclusionsText (is ++ is') = inclusionsText is ++ inclusionsText is' := by
  rw [inclusionsText, List.map_append, String.join_append, inclusionsText, inclusionsText]

/-- The file that an implementation needs is found under a path and has a text. -/
def Requirement.Finds (files : FileTree) (searchPath : SearchPath) (r : Requirement) (path : Path)
    (text : String) : Prop :=
  searchPath.findExisting? files ⟨r.file⟩ = some path ∧ files.readText? path = some text

/-- The files that some implementations need, each one once: every implementation finds its file, and
the file is taken over, possibly for another implementation that names it otherwise. -/
structure TakesOver (files : FileTree) (searchPath : SearchPath) (rs : List Requirement)
    (is : List Inclusion) : Prop where
  distinct : (is.map fun i => files.identity i.path).Nodup
  needed : ∀ i ∈ is, ∃ r ∈ rs, r.file = i.file ∧ r.Finds files searchPath i.path i.text
  complete : ∀ r ∈ rs, ∃ path, ∃ i ∈ is, r.Finds files searchPath path i.text ∧
    files.identity i.path = files.identity path

namespace SourceText

variable {files : FileTree} {searchPath : SearchPath} {rs rs' : List Requirement}
  {is : List Inclusion} {t t' : SourceText} {r : Requirement}

/-- Take over the file that an implementation needs. -/
def takeOver (files : FileTree) (searchPath : SearchPath) (t : SourceText) (r : Requirement) :
    Except GenerationError SourceText :=
  t.includeFile files searchPath r.implementation r.file

/-- A file that is needed is found; it was taken over before, or it is taken over now. -/
theorem takeOver_ok (h : t.takeOver files searchPath r = .ok t') :
    ∃ path, searchPath.findExisting? files ⟨r.file⟩ = some path ∧
      ((files.identity path ∈ t.included ∧ t' = t) ∨
        (files.identity path ∉ t.included ∧ ∃ text, files.readText? path = some text ∧
          t'.included = files.identity path :: t.included ∧ t'.code.depth = t.code.depth ∧
          t'.code.code = t.code.code ++ (linesText t.code.depth ["// Included from " ++ r.file] ++
            blockText text ++ "\n"))) := by
  unfold SourceText.takeOver includeFile at h
  split at h
  · cases h
  · rename_i path hpath
    refine ⟨path, hpath, ?_⟩
    dsimp only at h
    split at h
    · rename_i hin
      exact .inl ⟨List.contains_iff_mem.mp hin, (Except.ok.inj h).symm⟩
    · rename_i hnew
      split at h
      · cases h
      · rename_i text htext
        obtain rfl := Except.ok.inj h
        refine .inr ⟨fun hin => hnew (List.contains_iff_mem.mpr hin), text, htext, rfl, rfl, ?_⟩
        simp only [blank_code, block_code, line_code, String.append_assoc]

/-- The definitions so far hold the files that some implementations need, and know them. -/
structure HasTaken (files : FileTree) (searchPath : SearchPath) (rs : List Requirement)
    (is : List Inclusion) (t : SourceText) : Prop extends TakesOver files searchPath rs is where
  included : ∀ key, key ∈ t.included ↔ key ∈ is.map fun i => files.identity i.path
  depth : t.code.depth = 0

theorem HasTaken.nil : HasTaken files searchPath [] [] {} where
  distinct := List.nodup_nil
  needed := fun _ hi => absurd hi List.not_mem_nil
  complete := fun _ hr => absurd hr List.not_mem_nil
  included := fun _ => Iff.rfl
  depth := rfl

/-- Taking over one more file adds its text, or nothing. -/
theorem HasTaken.takeOver (hproper : Path.IsProper files.workingDirectory)
    (ht : t.HasTaken files searchPath rs is) (h : t.takeOver files searchPath r = .ok t') :
    ∃ new, t'.HasTaken files searchPath (rs ++ [r]) (is ++ new) ∧
      (∀ i ∈ new, r.file = i.file ∧ r.Finds files searchPath i.path i.text) ∧
      t'.code.code = t.code.code ++ inclusionsText new := by
  obtain ⟨path, hpath, ⟨hin, rfl⟩ | ⟨hnew, text, htext, hincluded, hdepth, hcode⟩⟩ := takeOver_ok h
  · obtain ⟨i, hi, hkey⟩ := List.mem_map.mp ((ht.included _).mp hin)
    -- The path of the file and the one under which it was taken over lead to one text.
    have htext : files.readText? path = some i.text := by
      obtain ⟨r', -, -, hfind, hread⟩ := ht.needed i hi
      rw [← FileTree.readText?_eq_of_identity_eq hproper (SearchPath.exists?_of_findExisting? hfind)
        (SearchPath.exists?_of_findExisting? hpath) hkey, hread]
    refine ⟨[], ?_, fun i hi => absurd hi List.not_mem_nil, String.append_empty.symm⟩
    rw [List.append_nil]
    refine { ht with needed := fun i hi => ?_, complete := fun s hs => ?_ }
    · obtain ⟨s, hs, hfinds⟩ := ht.needed i hi
      exact ⟨s, List.mem_append_left _ hs, hfinds⟩
    · rcases List.mem_append.mp hs with hs | hs
      · exact ht.complete s hs
      · obtain rfl := List.mem_singleton.mp hs
        exact ⟨path, i, hi, ⟨hpath, htext⟩, hkey⟩
  · have hfinds : r.Finds files searchPath path text := ⟨hpath, htext⟩
    refine ⟨[⟨r.file, path, text⟩], ?_, fun i hi => ?_, ?_⟩
    · exact {
        distinct := by
          rw [List.map_append, List.nodup_append]
          refine ⟨ht.distinct, List.nodup_singleton _, fun key hkey key' hkey' heq => hnew ?_⟩
          obtain rfl : key' = files.identity path := List.mem_singleton.mp hkey'
          exact (ht.included _).mpr (heq ▸ hkey)
        needed := fun i hi => by
          rcases List.mem_append.mp hi with hi | hi
          · obtain ⟨s, hs, hfinds⟩ := ht.needed i hi
            exact ⟨s, List.mem_append_left _ hs, hfinds⟩
          · obtain rfl := List.mem_singleton.mp hi
            exact ⟨r, List.mem_append_right _ (List.mem_singleton_self _), rfl, hfinds⟩
        complete := fun s hs => by
          rcases List.mem_append.mp hs with hs | hs
          · obtain ⟨path', i, hi, hs⟩ := ht.complete s hs
            exact ⟨path', i, List.mem_append_left _ hi, hs⟩
          · obtain rfl := List.mem_singleton.mp hs
            exact ⟨path, _, List.mem_append_right _ (List.mem_singleton_self _), hfinds, rfl⟩
        included := fun key => by
          rw [hincluded, List.mem_cons, ht.included, List.map_append, List.mem_append, or_comm,
            List.map_singleton, List.mem_singleton]
        depth := hdepth.trans ht.depth }
    · obtain rfl := List.mem_singleton.mp hi
      exact ⟨rfl, hfinds⟩
    · rw [hcode, ht.depth]
      simp only [inclusionsText, List.map_cons, List.map_nil, String.join_cons, String.join_nil,
        String.append_empty, Inclusion.code]

/-- Taking over files one after the other adds the texts of those that are new. -/
theorem HasTaken.takeOverAll (hproper : Path.IsProper files.workingDirectory)
    (ht : t.HasTaken files searchPath rs is)
    (h : rs'.foldlM (SourceText.takeOver files searchPath) t = .ok t') :
    ∃ new, t'.HasTaken files searchPath (rs ++ rs') (is ++ new) ∧
      (∀ i ∈ new, ∃ r ∈ rs', r.file = i.file ∧ r.Finds files searchPath i.path i.text) ∧
      t'.code.code = t.code.code ++ inclusionsText new := by
  induction rs' generalizing rs is t with
  | nil =>
    obtain rfl := Except.ok.inj h
    refine ⟨[], by simpa only [List.append_nil] using ht, fun i hi => absurd hi List.not_mem_nil, ?_⟩
    exact String.append_empty.symm
  | cons r rs' ih =>
    rw [List.foldlM_cons] at h
    obtain ⟨t₁, hfirst, hrest⟩ := Graph.ok_bind.mp h
    obtain ⟨first, ht₁, hfrom, hcode⟩ := ht.takeOver hproper hfirst
    obtain ⟨others, ht', hothers, hcode'⟩ := ih ht₁ hrest
    refine ⟨first ++ others, ?_, fun i hi => ?_, ?_⟩
    · simpa only [List.append_assoc, List.singleton_append] using ht'
    · rcases List.mem_append.mp hi with hi | hi
      · exact ⟨r, List.mem_cons_self, hfrom i hi⟩
      · obtain ⟨s, hs, hfinds⟩ := hothers i hi
        exact ⟨s, List.mem_cons_of_mem _ hs, hfinds⟩
    · rw [hcode', hcode, inclusionsText_append, String.append_assoc]

end SourceText

/-! ## What nodes need -/

/-- The file that a node needs, if any. -/
def ShaderNode.requirement? (n : ShaderNode) : Option Requirement :=
  match n.code? with
  | some (.source name (some file) _ none) => some ⟨name, file⟩
  | _ => none

theorem ShaderNode.requirement?_eq_some_iff {n : ShaderNode} {r : Requirement} :
    n.requirement? = some r ↔
      ∃ function?, n.code? = some (.source r.implementation (some r.file) function? none) := by
  unfold requirement?
  constructor
  · intro h
    split at h
    · rename_i name file function? hcode
      obtain rfl := Option.some.inj h
      exact ⟨function?, hcode⟩
    · cases h
  · rintro ⟨function?, hcode⟩
    rw [hcode]

/-- What the nodes take over is what they need. -/
theorem SourceText.foldlM_includeFor (files : FileTree) (searchPath : SearchPath)
    (nodes : List ShaderNode) (t : SourceText) :
    nodes.foldlM (SourceText.includeFor files searchPath) t =
      (nodes.filterMap (·.requirement?)).foldlM (SourceText.takeOver files searchPath) t := by
  rw [List.foldlM_filterMap]
  congr 1
  funext t n
  unfold SourceText.includeFor ShaderNode.requirement?
  cases n.code? with
  | none => rfl
  | some code =>
    cases code with
    | geometry reader => rfl
    | source name file? function? code? => cases file? <;> cases code? <;> rfl

/-! ## What lights need -/

namespace LightKinds

/-- The files that the kinds need. -/
def requirements (k : LightKinds) (d : Document) (target : Target) : List Requirement :=
  (k.evaluators d target).map fun (_, name, file, _) => ⟨name, file⟩

/-- The numbers of the kinds that can be evaluated, with the functions that do it. -/
def branches (k : LightKinds) (d : Document) (target : Target) : List (Nat × String) :=
  (k.evaluators d target).map fun (number, _, _, function) => (number, function)

/-- The text of a branch behind a keyword. -/
def branchText (keyword : String) (branch : Nat × String) : String :=
  linesText 1 [keyword ++ s!"(light.type == {String.ofList (Number.natText branch.1)})"] ++
    linesText 1 ["\x7b"] ++ linesText 2 [s!"{branch.2}(light, position, result);"] ++
    linesText 1 ["\x7d"]

/-- The text of the branches. -/
def branchesText : List (Nat × String) → String
  | [] => ""
  | branch :: rest => branchText "if " branch ++ String.join (rest.map (branchText "else if "))

/-- The text of the function that evaluates a light by its kind. -/
def dispatcherText (branches : List (Nat × String)) : String :=
  linesText 0
      ["void sampleLightSource(LightData light, vec3 position, out lightshader result)"] ++
    linesText 0 ["\x7b"] ++
    linesText 1 ["result.intensity = vec3(0.0);", "result.direction = vec3(0.0);"] ++
    branchesText branches ++ linesText 0 ["\x7d"] ++ "\n"

/-- A branch adds its text. -/
theorem dispatchBranches_cons {b : CodeBuffer} (hdepth : b.depth = 1) (isFirst : Bool)
    (branch : Nat × String) (rest : List (Nat × String)) :
    ∃ b' : CodeBuffer, dispatchBranches isFirst b (branch :: rest) = dispatchBranches false b' rest ∧
      b'.depth = 1 ∧
        b'.code = b.code ++ branchText (if isFirst then "if " else "else if ") branch := by
  refine ⟨_, rfl, ?_, ?_⟩
  · simp only [closeScope_depth, line_depth, openScope_depth, hdepth, Nat.add_sub_cancel]
  · simp only [closeScope_code, line_code, line_depth, openScope_code, openScope_depth, hdepth,
      branchText, Nat.add_sub_cancel, String.append_assoc, String.append_empty]

theorem dispatchBranches_false {b : CodeBuffer} (hdepth : b.depth = 1)
    (branches : List (Nat × String)) :
    (dispatchBranches false b branches).depth = 1 ∧
      (dispatchBranches false b branches).code =
        b.code ++ String.join (branches.map (branchText "else if ")) := by
  induction branches generalizing b with
  | nil => exact ⟨hdepth, String.append_empty.symm⟩
  | cons branch rest ih =>
    obtain ⟨b', heq, hdepth', hcode⟩ := dispatchBranches_cons hdepth false branch rest
    obtain ⟨hrest, hcodes⟩ := ih hdepth'
    rw [heq]
    refine ⟨hrest, ?_⟩
    rw [hcodes, hcode, List.map_cons, String.join_cons, String.append_assoc]
    rfl

theorem dispatchBranches_true {b : CodeBuffer} (hdepth : b.depth = 1)
    (branches : List (Nat × String)) :
    (dispatchBranches true b branches).depth = 1 ∧
      (dispatchBranches true b branches).code = b.code ++ branchesText branches := by
  cases branches with
  | nil => exact ⟨hdepth, String.append_empty.symm⟩
  | cons branch rest =>
    obtain ⟨b', heq, hdepth', hcode⟩ := dispatchBranches_cons hdepth true branch rest
    obtain ⟨hrest, hcodes⟩ := dispatchBranches_false hdepth' rest
    rw [heq]
    refine ⟨hrest, ?_⟩
    rw [hcodes, hcode, branchesText, String.append_assoc]
    rfl

theorem dispatcher_spec {b : CodeBuffer} (hdepth : b.depth = 0) (branches : List (Nat × String)) :
    (dispatcher branches b).depth = 0 ∧
      (dispatcher branches b).code = b.code ++ dispatcherText branches := by
  have hopened : (((b.line
      "void sampleLightSource(LightData light, vec3 position, out lightshader result)").openScope.lines
      ["result.intensity = vec3(0.0);", "result.direction = vec3(0.0);"]).depth) = 1 := by
    simp only [lines_depth, openScope_depth, line_depth, hdepth]
  obtain ⟨hbranches, hcode⟩ := dispatchBranches_true hopened branches
  unfold dispatcher
  refine ⟨?_, ?_⟩
  · simp only [blank_depth, closeScope_depth, hbranches]
  · simp only [blank_code, closeScope_code, hbranches, hcode, lines_code_eq, openScope_code,
      openScope_depth, line_code, line_depth, hdepth, dispatcherText, String.append_assoc,
      String.append_empty]

/-- Evaluating lights takes over the files of the kinds and adds the function that evaluates a
light. -/
theorem evaluation_ok {k : LightKinds} {d : Document} {files : FileTree} {options : GeneratorOptions}
    {t t' : SourceText} (h : k.evaluation d files options t = .ok t') :
    ∃ t₁, (k.requirements d options.target).foldlM (SourceText.takeOver files options.sourcePath) t =
        .ok t₁ ∧
      t' = { t₁ with code := dispatcher (k.branches d options.target) t₁.code } := by
  obtain ⟨t₁, hfiles, h⟩ := Graph.ok_bind.mp h
  refine ⟨t₁, ?_, (Except.ok.inj h).symm⟩
  rw [requirements, List.foldlM_map]
  exact hfiles

end LightKinds

/-! ## The function definitions -/

/-- The function definitions of a shader: the files of lights and the function that evaluates a light,
if the shader is lit, and then the files of nodes. -/
structure ShaderGenerator.FunctionsMadeOf (gen : ShaderGenerator) (d : Document) (files : FileTree)
    (options : GeneratorOptions) (isLit : Bool) (nodes : List ShaderNode)
    (lights others : List Inclusion) (code : String) : Prop where
  takesLights : TakesOver files options.sourcePath
    (if isLit then gen.lights.requirements d options.target else []) lights
  takesAll : TakesOver files options.sourcePath
    ((if isLit then gen.lights.requirements d options.target else []) ++
      nodes.filterMap (·.requirement?)) (lights ++ others)
  takesOthers : ∀ i ∈ others, ∃ r ∈ nodes.filterMap (·.requirement?), r.file = i.file ∧
    r.Finds files options.sourcePath i.path i.text
  code_eq : code =
    (if isLit then
      inclusionsText lights ++ LightKinds.dispatcherText (gen.lights.branches d options.target)
    else "") ++ inclusionsText others

theorem ShaderGenerator.functions_ok {gen : ShaderGenerator} {d : Document} {files : FileTree}
    {options : GeneratorOptions} {isLit : Bool} {nodes : List ShaderNode} {t : SourceText}
    (hproper : Path.IsProper files.workingDirectory)
    (h : gen.functions d files options isLit nodes = .ok t) :
    ∃ lights others, gen.FunctionsMadeOf d files options isLit nodes lights others t.code.code := by
  have hnodes {t₀ : SourceText}
      (h : nodes.foldlM (SourceText.includeFor files options.sourcePath) t₀ = .ok t) :
      (nodes.filterMap (·.requirement?)).foldlM (SourceText.takeOver files options.sourcePath) t₀ =
        .ok t := SourceText.foldlM_includeFor files options.sourcePath nodes t₀ ▸ h
  unfold ShaderGenerator.functions at h
  cases isLit with
  | false =>
    obtain ⟨others, hothers, hfrom, hcode⟩ := SourceText.HasTaken.nil.takeOverAll hproper (hnodes h)
    exact ⟨[], others, SourceText.HasTaken.nil.toTakesOver, hothers.toTakesOver, hfrom, hcode⟩
  | true =>
    obtain ⟨t₂, hevaluation, h⟩ := Graph.ok_bind.mp h
    obtain ⟨t₁, hlights, rfl⟩ := LightKinds.evaluation_ok hevaluation
    obtain ⟨lights, ht₁, -, hcode₁⟩ := SourceText.HasTaken.nil.takeOverAll hproper hlights
    obtain ⟨hdepth, hdispatcher⟩ :=
      LightKinds.dispatcher_spec ht₁.depth (gen.lights.branches d options.target)
    have ht₂ : SourceText.HasTaken files options.sourcePath
        ([] ++ gen.lights.requirements d options.target) ([] ++ lights)
        { t₁ with code := LightKinds.dispatcher (gen.lights.branches d options.target) t₁.code } :=
      { ht₁ with depth := hdepth }
    obtain ⟨others, hothers, hfrom, hcode⟩ := ht₂.takeOverAll hproper (hnodes h)
    refine ⟨lights, others, ht₁.toTakesOver, hothers.toTakesOver, hfrom, ?_⟩
    have hempty : ({} : SourceText).code.code = "" := rfl
    rw [hcode, if_pos rfl, hdispatcher, hcode₁, hempty, String.empty_append]

/-! ## Generated shaders -/

/-- A kind of light whose definition is implemented by a function of a file needs the file. -/
def LightKinds.Requires (k : LightKinds) (d : Document) (target : Target) (r : Requirement) : Prop :=
  ∃ nodeDef number function code?, (nodeDef, number) ∈ k.entries ∧
    d.resolve nodeDef target = .ok (.source r.implementation (some r.file) (some function) code?)

/-- A node that the root reaches needs the file of its implementation, unless this has code. -/
def ShaderGraph.Requires (g : ShaderGraph) (r : Requirement) : Prop :=
  ∃ i n function?, g.Reaches i ∧ g.nodes[i]? = some n ∧
    n.code? = some (.source r.implementation (some r.file) function? none)

theorem LightKinds.mem_requirements_iff {k : LightKinds} {d : Document} {target : Target}
    {r : Requirement} : r ∈ k.requirements d target ↔ k.Requires d target r := by
  unfold requirements Requires
  rw [List.mem_map]
  constructor
  · rintro ⟨⟨number, name, file, function⟩, hmem, rfl⟩
    obtain ⟨nodeDef, code?, hentry, hresolve⟩ := mem_evaluators_iff.mp hmem
    exact ⟨nodeDef, number, function, code?, hentry, hresolve⟩
  · rintro ⟨nodeDef, number, function, code?, hentry, hresolve⟩
    exact ⟨_, mem_evaluators_iff.mpr ⟨nodeDef, code?, hentry, hresolve⟩, rfl⟩

theorem ShaderGraph.SortedFromRoot.mem_requirements_iff {g : ShaderGraph} {order : List Nat}
    (h : g.SortedFromRoot order) {r : Requirement} :
    r ∈ (order.filterMap (g.nodes[·]?)).filterMap (·.requirement?) ↔ g.Requires r := by
  unfold Requires
  rw [List.mem_filterMap]
  constructor
  · rintro ⟨n, hn, hneeds⟩
    obtain ⟨i, hi, hn⟩ := List.mem_filterMap.mp hn
    obtain ⟨function?, hcode⟩ := ShaderNode.requirement?_eq_some_iff.mp hneeds
    exact ⟨i, n, function?, (h.mem_iff i).mp hi, hn, hcode⟩
  · rintro ⟨i, n, function?, hreach, hn, hcode⟩
    exact ⟨n, List.mem_filterMap.mpr ⟨i, (h.mem_iff i).mpr hreach, hn⟩,
      ShaderNode.requirement?_eq_some_iff.mpr ⟨function?, hcode⟩⟩

/-- The declarations before the function definitions of the pixel stage. -/
def ShaderParts.declarationsText (p : ShaderParts) : String :=
  p.pixelHead ++ uniformsText 0 "PrivateUniforms" p.pixelUniforms (·.declaration?) ++
    uniformsText 0 "PublicUniforms" p.publicUniforms (·.initializedDeclaration?) ++
    p.lightsText ++ varyingsText 0 "in" p.varyings ++ outputText

theorem ShaderParts.pixelSource_eq_sections (p : ShaderParts) :
    p.pixelSource = p.declarationsText ++ p.functions.code.code ++ mainText p.pixelBody :=
  p.pixelSource_eq

/-- The function definitions of a shader for a graph: the files that lights need and the function that
evaluates lights, if the root is a surface, and then the files that only nodes need. Everything that
needs a file finds it, and no file is there twice. -/
structure ShaderGenerator.TakesSources (gen : ShaderGenerator) (d : Document) (files : FileTree)
    (options : GeneratorOptions) (graph : ShaderGraph) (isLit : Prop) [Decidable isLit]
    (lights others : List Inclusion) (code : String) : Prop where
  code_eq : code =
    (if isLit then
      inclusionsText lights ++ LightKinds.dispatcherText (gen.lights.branches d options.target)
    else "") ++ inclusionsText others
  distinct : ((lights ++ others).map fun i => files.identity i.path).Nodup
  lights_needed : ∀ i ∈ lights, isLit ∧ ∃ r, gen.lights.Requires d options.target r ∧
    r.file = i.file ∧ r.Finds files options.sourcePath i.path i.text
  others_needed : ∀ i ∈ others, ∃ r, graph.Requires r ∧ r.file = i.file ∧
    r.Finds files options.sourcePath i.path i.text
  lights_complete : isLit → ∀ r, gen.lights.Requires d options.target r → ∃ path, ∃ i ∈ lights,
    r.Finds files options.sourcePath path i.text ∧ files.identity i.path = files.identity path
  complete : ∀ r, graph.Requires r → ∃ path, ∃ i ∈ lights ++ others,
    r.Finds files options.sourcePath path i.text ∧ files.identity i.path = files.identity path

theorem ShaderGenerator.FunctionsMadeOf.takesSources {gen : ShaderGenerator} {d : Document}
    {files : FileTree} {options : GeneratorOptions} {graph : ShaderGraph} {order : List Nat}
    {isLit : Prop} [Decidable isLit] {lights others : List Inclusion} {code : String}
    (horder : graph.SortedFromRoot order)
    (h : gen.FunctionsMadeOf d files options isLit (order.filterMap (graph.nodes[·]?)) lights others
      code) : gen.TakesSources d files options graph isLit lights others code where
  code_eq := by simpa only [decide_eq_true_eq] using h.code_eq
  distinct := h.takesAll.distinct
  lights_needed := fun i hi => by
    obtain ⟨r, hr, hfinds⟩ := h.takesLights.needed i hi
    by_cases hlit : isLit
    · rw [if_pos (decide_eq_true hlit)] at hr
      exact ⟨hlit, r, LightKinds.mem_requirements_iff.mp hr, hfinds⟩
    · rw [if_neg (by simpa using hlit)] at hr
      cases hr
  others_needed := fun i hi => by
    obtain ⟨r, hr, hfinds⟩ := h.takesOthers i hi
    exact ⟨r, horder.mem_requirements_iff.mp hr, hfinds⟩
  lights_complete := fun hlit r hr => by
    refine h.takesLights.complete r ?_
    rw [if_pos (decide_eq_true hlit)]
    exact LightKinds.mem_requirements_iff.mpr hr
  complete := fun r hr =>
    h.takesAll.complete r (List.mem_append_right _ (horder.mem_requirements_iff.mpr hr))

/-- The pixel stage of a generated shader has the function definitions between its declarations and
its main function. -/
theorem generate_takesSources {gen : ShaderGenerator} {d : Document} {files : FileTree}
    {path : String} {options : GeneratorOptions} {shader : GeneratedShader}
    (hproper : Path.IsProper files.workingDirectory)
    (h : gen.generate d files path options = .ok shader) :
    ∃ graph root nodes final parts lights others,
      Graph.build ⟨d, options, gen.registry⟩ path = .ok graph ∧ graph.rootNode? = some root ∧
      gen.parts d files options graph nodes final (root.type = .closure .surfaceShader) = .ok parts ∧
      shader.maxLights = parts.maxLights ∧
      shader.pixelSource =
        parts.declarationsText ++ parts.functions.code.code ++ ShaderParts.mainText parts.pixelBody ∧
      gen.TakesSources d files options graph (root.type = .closure .surfaceShader) lights others
        parts.functions.code.code := by
  obtain ⟨graph, parts, hbuild, main, hparts, rfl⟩ := generate_main h
  obtain ⟨lights, others, hfunctions⟩ := ShaderGenerator.functions_ok hproper (parts_functions hparts)
  exact ⟨graph, main.root, _, main.final, parts, lights, others, hbuild, main.rootNode, hparts, rfl,
    parts.pixelSource_eq_sections, hfunctions.takesSources main.sorted⟩

/-- A generated shader takes over each file that its lights, if it is lit, and its nodes need once,
and no other file. A file that is needed and cannot be found or read is an error. -/
theorem generate_inclusions {gen : ShaderGenerator} {d : Document} {files : FileTree}
    {path : String} {options : GeneratorOptions} (hproper : Path.IsProper files.workingDirectory) :
    (∀ shader, gen.generate d files path options = .ok shader →
      ∃ graph root nodes final parts lights others,
        Graph.build ⟨d, options, gen.registry⟩ path = .ok graph ∧ graph.rootNode? = some root ∧
        gen.parts d files options graph nodes final (root.type = .closure .surfaceShader) =
          .ok parts ∧
        shader.pixelSource = parts.declarationsText ++ parts.functions.code.code ++
          ShaderParts.mainText parts.pixelBody ∧
        gen.TakesSources d files options graph (root.type = .closure .surfaceShader) lights others
          parts.functions.code.code) ∧
    ∀ graph root, Graph.build ⟨d, options, gen.registry⟩ path = .ok graph →
      graph.rootNode? = some root → ∀ r : Requirement,
      (root.type = .closure .surfaceShader ∧ gen.lights.Requires d options.target r) ∨
        graph.Requires r →
      (∀ path text, ¬ r.Finds files options.sourcePath path text) →
      ∃ e, gen.generate d files path options = .error e := by
  refine ⟨fun shader h => ?_, fun graph root hbuild hroot r hr hmissing => ?_⟩
  · obtain ⟨graph, root, nodes, final, parts, lights, others, hbuild, hroot, hparts, -, hsource,
      htakes⟩ := generate_takesSources hproper h
    exact ⟨graph, root, nodes, final, parts, lights, others, hbuild, hroot, hparts, hsource, htakes⟩
  · cases h : gen.generate d files path options with
    | error e => exact ⟨e, rfl⟩
    | ok shader =>
      obtain ⟨graph', root', nodes, final, parts, lights, others, hbuild', hroot', -, -, -, htakes⟩ :=
        generate_takesSources hproper h
      obtain rfl := Except.ok.inj (hbuild.symm.trans hbuild')
      obtain rfl := Option.some.inj (hroot.symm.trans hroot')
      rcases hr with ⟨hlit, hr⟩ | hr
      · obtain ⟨p, i, -, hfinds, -⟩ := htakes.lights_complete hlit r hr
        exact absurd hfinds (hmissing p i.text)
      · obtain ⟨p, i, -, hfinds, -⟩ := htakes.complete r hr
        exact absurd hfinds (hmissing p i.text)

namespace SharedSample

/-- The implementation of the definition of a category by a function of a file. -/
def fileImplementation (category file : String) : Element :=
  { category := "implementation", name := "IM_" ++ category
    attributes := [("nodedef", "ND_" ++ category), ("language", "genglsl"), ("file", file),
      ("function", category)] }

open Graph.Sample in
/-- A kind of light and a surface whose functions are in one file, which they name in two ways. -/
def document : Document :=
  (request
    [definition "lamp" "lightshader" [], fileImplementation "lamp" "shared.glsl",
      definition "paint" "surfaceshader" [], fileImplementation "paint" "./shared.glsl",
      node "paint" "top" "surfaceshader" []]).document

open Graph.Sample in
/-- A kind of light whose function is in a file, and a node that is not lit. -/
def unlitDocument : Document :=
  (request
    [definition "lamp" "lightshader" [], fileImplementation "lamp" "shared.glsl",
      definition "flat" "float" [], implementation "flat" "0.5",
      node "flat" "top" "float" []]).document

/-- The file. -/
def files : FileTree :=
  { FileTree.empty [] with files := [(["shared.glsl"], "void lamp();".toUTF8)] }

/-- A generator with this kind of light. -/
def generator : ShaderGenerator := { lights := .ofList [("ND_lamp", 1)] }

end SharedSample

open SharedSample in
theorem generate_inclusions_shared :
    Path.IsProper files.workingDirectory ∧
    ∃ shader graph root nodes final parts lights others,
      generator.generate document files "top" {} = .ok shader ∧
      Graph.build ⟨document, {}, generator.registry⟩ "top" = .ok graph ∧
      graph.rootNode? = some root ∧
      generator.parts document files {} graph nodes final (root.type = .closure .surfaceShader) =
        .ok parts ∧
      shader.pixelSource = parts.declarationsText ++ parts.functions.code.code ++
        ShaderParts.mainText parts.pixelBody ∧
      generator.TakesSources document files {} graph (root.type = .closure .surfaceShader) lights
        others parts.functions.code.code := by
  have hproper : Path.IsProper files.workingDirectory := by decide
  have heval : (generator.generate document files "top" {}).toOption.map (·.maxLights) =
      some 3 := by decide +kernel
  obtain ⟨shader, hshader, -⟩ := Graph.Sample.exists_ok_of_map heval
  obtain ⟨graph, root, nodes, final, parts, lights, others, h⟩ :=
    (generate_inclusions hproper).1 shader hshader
  exact ⟨hproper, shader, graph, root, nodes, final, parts, lights, others, hshader, h⟩

/-- A shader that is not lit needs no file of a light, so that one which is missing is no error. -/
theorem not_generate_error_unlit :
    ¬ ∀ (gen : ShaderGenerator) (d : Document) (files : FileTree) (path : String)
      (options : GeneratorOptions) (r : Requirement), gen.lights.Requires d options.target r →
      (∀ path text, ¬ r.Finds files options.sourcePath path text) →
      ∃ e, gen.generate d files path options = .error e := by
  intro h
  have hrequires : SharedSample.generator.lights.Requires SharedSample.unlitDocument
      ({} : GeneratorOptions).target ⟨"IM_lamp", "shared.glsl"⟩ :=
    ⟨"ND_lamp", 1, "lamp", none, by decide +kernel, by decide +kernel⟩
  have hmissing : SearchPath.findExisting? ({} : GeneratorOptions).sourcePath (.empty [])
      ⟨"shared.glsl"⟩ = none := by decide +kernel
  obtain ⟨e, he⟩ := h SharedSample.generator SharedSample.unlitDocument (.empty []) "top" {}
    ⟨"IM_lamp", "shared.glsl"⟩ hrequires fun path text hfinds =>
      Option.some_ne_none path (hfinds.1.symm.trans hmissing)
  have heval : (SharedSample.generator.generate SharedSample.unlitDocument (.empty []) "top"
      {}).toOption.map (·.maxLights) = some 0 := by decide +kernel
  obtain ⟨shader, hshader, -⟩ := Graph.Sample.exists_ok_of_map heval
  cases hshader.symm.trans he

end MaterialViewer
