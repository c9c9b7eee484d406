import MaterialViewer.Proofs.Graph.Origins
import MaterialViewer.Proofs.Graph.Uniforms
import MaterialViewer.Proofs.Shader.Parts

/-!
# Proofs: public uniforms by path

A public uniform records the path of the input that it was made for, and looking up a path finds the
first uniform that records it. So each uniform is found under its path exactly if different uniforms
record different paths.

The path is that of the node with the name of the input after it, and two things can make two such
paths one: nodes that have one path but different origins, and slashes in names.
-/

namespace MaterialViewer

/-- Looking up the path of a variable finds this variable, if there is no other with the path. -/
theorem VariableBlock.find?_path_iff {block : VariableBlock} :
    (∀ v ∈ block.entries, block.find? v.path = some v) ↔
      ∀ v ∈ block.entries, ∀ w ∈ block.entries, v.path = w.path → v = w := by
  constructor
  · intro h v hv w hw hpath
    have hfound := h v hv
    rw [hpath, h w hw] at hfound
    exact (Option.some.inj hfound).symm
  · intro h v hv
    cases hfind : block.find? v.path with
    | none => exact absurd (List.find?_eq_none.mp hfind v hv) (by simp)
    | some w =>
      have hpath : w.path = v.path := by simpa using List.find?_some hfind
      rw [h w (List.mem_of_find?_eq_some hfind) v hv hpath]

namespace Graph

variable {d : Document} {b : Build} {p q : Parameter} {origins : List (String × NodeOrigin)}
  {o : NodeOrigin}

/-! ## Paths of parameters -/

/-- The node of `q` is below that of `p`, and the name of the input of `p` leads there. -/
def Parameter.LeadsInto (p q : Parameter) : Prop :=
  ∃ s, q.nodePath = p.nodePath ++ "/" ++ s ∧ p.inputName = s ++ "/" ++ q.inputName

/-- Two parameters have one path: their inputs have one name and their nodes one path, or the name of
one input leads into the node of the other. -/
def Parameter.SharesPath (p q : Parameter) : Prop :=
  (p.nodePath = q.nodePath ∧ p.inputName = q.inputName) ∨ p.LeadsInto q ∨ q.LeadsInto p

theorem path_eq_iff (hp : p.nodePath ≠ "") (hq : q.nodePath ≠ "") :
    p.uniform.path = q.uniform.path ↔ p.SharesPath q := by
  have hjoin : ∀ {p : Parameter}, p.nodePath ≠ "" →
      p.uniform.path = p.nodePath ++ "/" ++ p.inputName := fun hp => if_neg hp
  rw [hjoin hp, hjoin hq]
  exact Text.separated_eq_iff rfl

/-- The elements with a path have a path that is not empty, and so have the nodes for them. -/
theorem NodeOrigin.path_ne_empty (h : (d.element? o.element).isSome) : o.path ≠ "" := by
  have hempty : d.element? "" = none := if_pos rfl
  cases o with
  | drawn path | node keyPrefix path =>
    rintro rfl
    rw [NodeOrigin.element, hempty] at h
    cases h
  | conversion keyPrefix path =>
    intro hnil
    have hlist := congrArg String.toList hnil
    rw [NodeOrigin.path, conversionPath, String.toList_append, String.toList_append] at hlist
    simp at hlist

/-- The nodes of all parameters have an origin, different ones have different origins, and the
origin tells the path. -/
structure TellsOrigins (d : Document) (b : Build) (origins : List (String × NodeOrigin)) : Prop where
  names : (origins.map (·.1)).Nodup
  distinct : (origins.map (·.2)).Nodup
  parameter : ∀ p ∈ b.parameters, ∃ o, (p.nodeName, o) ∈ origins ∧ o.path = p.nodePath ∧
    (d.element? o.element).isSome

theorem Traced.tellsOrigins (h : Traced d origins b) : TellsOrigins d b origins := by
  refine ⟨h.names, h.distinct, fun p hp => ?_⟩
  obtain ⟨o, ho, hpath⟩ := h.parameter p hp
  exact ⟨o, ho, hpath, h.element _ ho⟩

theorem TellsOrigins.nodePath_ne (h : TellsOrigins d b origins) (hp : p ∈ b.parameters) :
    p.nodePath ≠ "" := by
  obtain ⟨o, -, hpath, helement⟩ := h.parameter p hp
  exact hpath ▸ NodeOrigin.path_ne_empty helement

/-! ## Uniforms of parameters -/

/-- A parameter whose uniform is the one under its name. -/
structure Build.Keeps (b : Build) (p : Parameter) : Prop where
  mem : p ∈ b.parameters
  kept : b.uniforms.get? p.uniformName = some p.uniform

theorem mem_uniforms_iff {v : ShaderVariable} :
    v ∈ b.uniforms.entries ↔ ∃ p, b.Keeps p ∧ p.uniform = v := by
  constructor
  · intro hv
    have hnothing : VariableBlock.names {} = [] := rfl
    have hnames : b.uniforms.names.Nodup :=
      VariableBlock.nodup_names_addAll (hnothing ▸ List.nodup_nil) _
    have hget := VariableBlock.get?_of_mem hnames hv
    rcases VariableBlock.mem_of_mem_addAll hv with hv | hv
    · cases hv
    · obtain ⟨p, hp, rfl⟩ := List.mem_map.mp hv
      exact ⟨p, ⟨hp, hget⟩, rfl⟩
  · rintro ⟨p, hp, rfl⟩
    exact List.mem_of_find?_eq_some hp.kept

/-- Uniforms are found under their paths exactly if no two of them are made for parameters that have
one path. -/
theorem find?_uniforms_iff (h : TellsOrigins d b origins) :
    (∀ v ∈ b.uniforms.entries, b.uniforms.find? v.path = some v) ↔
      ∀ p q, b.Keeps p → b.Keeps q → p.SharesPath q → p.uniformName = q.uniformName := by
  rw [VariableBlock.find?_path_iff]
  constructor
  · intro hall p q hp hq hshare
    have hpath := (path_eq_iff (h.nodePath_ne hp.mem) (h.nodePath_ne hq.mem)).mpr hshare
    have hsame := hall _ (mem_uniforms_iff.mpr ⟨p, hp, rfl⟩) _ (mem_uniforms_iff.mpr ⟨q, hq, rfl⟩)
      hpath
    exact congrArg ShaderVariable.name hsame
  · intro hall v hv w hw hpath
    obtain ⟨p, hp, rfl⟩ := mem_uniforms_iff.mp hv
    obtain ⟨q, hq, rfl⟩ := mem_uniforms_iff.mp hw
    have hshare := (path_eq_iff (h.nodePath_ne hp.mem) (h.nodePath_ne hq.mem)).mp hpath
    have hkept := hp.kept
    rw [hall p q hp hq hshare, hq.kept] at hkept
    exact (Option.some.inj hkept).symm

end Graph

/-- In a generated shader each public uniform is found under its path exactly if no two of them are
made for parameters that have one path. Nodes of parameters that have one path have different
origins. -/
theorem generate_findUniform_iff {gen : ShaderGenerator} {d : Document} {files : FileTree}
    {path : String} {options : GeneratorOptions} {shader : GeneratedShader}
    (h : gen.generate d files path options = .ok shader) :
    ∃ (root : Nat) (b : Graph.Build) (origins : List (String × Graph.NodeOrigin)),
      Graph.buildWithin ⟨d, options, gen.registry⟩ (Graph.depthBound d) path = .ok (root, b) ∧
      shader.publicUniforms = b.uniforms ∧ Graph.TellsOrigins d b origins ∧
      ((∀ v ∈ shader.publicUniforms.entries, shader.findUniform? v.path = some v) ↔
        ∀ p q, b.Keeps p → b.Keeps q → p.SharesPath q → p.uniformName = q.uniformName) := by
  obtain ⟨graph, root, nodes, final, parts, hbuild, -, -, rfl⟩ := generate_parts h
  obtain ⟨⟨root, b⟩, hrun, rfl⟩ := Graph.map_ok.mp hbuild
  obtain ⟨origins, htraced⟩ := Graph.buildWithin_traced hrun
  have horigins := htraced.tellsOrigins
  exact ⟨root, b, origins, hrun, rfl, horigins, Graph.find?_uniforms_iff horigins⟩

/-- Two nodes of a category that a node graph implements; the node in it has a parameter. -/
def Graph.Sample.instances : Request :=
  request
    [definition "tone" "float" [input "x" "float" [("value", "0.5")]],
      implementation "tone" "\x7b\x7bx\x7d\x7d",
      definition "mix" "float" [input "a" "float", input "b" "float"],
      implementation "mix" "\x7b\x7ba\x7d\x7d + \x7b\x7bb\x7d\x7d",
      definition "soft" "float" [],
      { category := "nodegraph", name := "soft_graph", attributes := [("nodedef", "ND_soft")]
        children := [node "tone" "inner" "float" [],
          { category := "output", name := "out"
            attributes := [("type", "float"), ("nodename", "inner")] }] },
      node "soft" "a" "float" [], node "soft" "b" "float" [],
      node "mix" "top" "float" [link "a" "a", link "b" "b"]]

/-- The shader for the sum of these nodes. -/
def instancesShader : Except GenerationError GeneratedShader :=
  ({} : ShaderGenerator).generate Graph.Sample.instances.document (.empty []) "top" {}

theorem generate_findUniform_iff_instances : ∃ shader, instancesShader = .ok shader ∧
    ∃ (root : Nat) (b : Graph.Build) (origins : List (String × Graph.NodeOrigin)),
      Graph.buildWithin Graph.Sample.instances
        (Graph.depthBound Graph.Sample.instances.document) "top" = .ok (root, b) ∧
      shader.publicUniforms = b.uniforms ∧
      Graph.TellsOrigins Graph.Sample.instances.document b origins ∧
      ((∀ v ∈ shader.publicUniforms.entries, shader.findUniform? v.path = some v) ↔
        ∀ p q, b.Keeps p → b.Keeps q → p.SharesPath q → p.uniformName = q.uniformName) := by
  have heval : instancesShader.toOption.map (·.name) = some "top" := by decide +kernel
  obtain ⟨shader, hshader, -⟩ := Graph.Sample.exists_ok_of_map heval
  have hrequest : Graph.Sample.instances =
      ⟨Graph.Sample.instances.document, {}, ({} : ShaderGenerator).registry⟩ := rfl
  refine ⟨shader, hshader, ?_⟩
  rw [hrequest]
  exact generate_findUniform_iff hshader

/-- Both instances of the node have a uniform, and both uniforms record one path, so that of the
second is not found. -/
theorem not_findUniform_instances : ∃ shader, instancesShader = .ok shader ∧
    ∃ v ∈ shader.publicUniforms.entries, v.name = "b_inner_x" ∧
      v.path = "soft_graph/inner/x" ∧
      (shader.findUniform? v.path).map (·.name) = some "a_inner_x" := by
  have heval : instancesShader.toOption.map (fun shader => (shader.publicUniforms.entries.map
      (fun v => (v.name, v.path)), (shader.findUniform? "soft_graph/inner/x").map (·.name))) =
      some ([("a_inner_x", "soft_graph/inner/x"), ("b_inner_x", "soft_graph/inner/x")],
        some "a_inner_x") := by decide +kernel
  obtain ⟨shader, hshader, hview⟩ := Graph.Sample.exists_ok_of_map heval
  obtain ⟨hentries, hfound⟩ := Prod.mk.inj hview
  have hmem : ("b_inner_x", "soft_graph/inner/x") ∈ shader.publicUniforms.entries.map
      (fun v => (v.name, v.path)) := by
    rw [hentries]
    exact List.mem_cons_of_mem _ (List.mem_singleton_self _)
  obtain ⟨v, hv, heq⟩ := List.mem_map.mp hmem
  obtain ⟨hname, hpath⟩ := Prod.mk.inj heq
  exact ⟨shader, hshader, v, hv, hname, hpath, hpath ▸ hfound⟩

end MaterialViewer
