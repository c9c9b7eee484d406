import Mathlib.Data.List.Basic
import MaterialViewer.Proofs.Graph.Sample
import MaterialViewer.Proofs.Graph.Sound
import MaterialViewer.Proofs.Text.Split

/-!
# Proofs: public parameters and their uniforms

The uniform of a parameter is named after its node and its input, with an underscore between them.
Nodes have different names, but the names may contain underscores, and different inputs may be named
by one identifier, so two parameters can ask for one uniform. The block of uniforms keeps the first.
Every parameter has a uniform of its own exactly if no two parameters collide in one of these ways.
-/

namespace MaterialViewer

namespace VariableBlock

theorem get?_add (b : VariableBlock) (v : ShaderVariable) (name : String) :
    (b.add v).get? name = (b.get? name).or (if v.name = name then some v else none) := by
  unfold add
  by_cases hname : v.name = name
  · by_cases hin : b.contains v.name
    · rw [if_pos hin, if_pos hname]
      rw [contains, hname] at hin
      obtain ⟨w, hw⟩ := Option.isSome_iff_exists.mp hin
      rw [hw, Option.some_or]
    · rw [if_neg hin, if_pos hname]
      simp [get?, hname]
  · rw [if_neg hname, Option.or_none]
    split
    · rfl
    · simp [get?, hname]

/-- Of the variables of one name the first is kept. -/
theorem get?_addAll (b : VariableBlock) (vs : List ShaderVariable) (name : String) :
    (b.addAll vs).get? name = (b.get? name).or (vs.find? (·.name = name)) := by
  induction vs generalizing b with
  | nil => simp [addAll]
  | cons v rest ih =>
    have hrest : b.addAll (v :: rest) = (b.add v).addAll rest := rfl
    rw [hrest, ih, get?_add, List.find?_cons, Option.or_assoc]
    by_cases hname : v.name = name
    · simp [hname]
    · simp [hname]

theorem nodup_names_add {b : VariableBlock} (h : b.names.Nodup) (v : ShaderVariable) :
    (b.add v).names.Nodup := by
  unfold add
  split
  · exact h
  · rename_i hnew
    unfold names at h ⊢
    rw [List.map_append, List.map_singleton, List.nodup_append]
    refine ⟨h, by simp, ?_⟩
    rintro _ hname _ hv rfl
    obtain ⟨w, hw, hsame⟩ := List.mem_map.mp hname
    exact hnew (List.find?_isSome.mpr ⟨w, hw, by simpa [hsame] using hv⟩)

/-- The variables of a block have different names. -/
theorem nodup_names_addAll {b : VariableBlock} (h : b.names.Nodup) (vs : List ShaderVariable) :
    (b.addAll vs).names.Nodup := by
  induction vs generalizing b with
  | nil => exact h
  | cons v rest ih => exact ih (nodup_names_add h v)

theorem mem_names_iff {b : VariableBlock} {name : String} :
    name ∈ b.names ↔ (b.get? name).isSome := by
  rw [names, List.mem_map, get?, List.find?_isSome]
  simp only [decide_eq_true_eq]

/-- The names of a block are those that it had and those that were registered. -/
theorem mem_names_addAll {b : VariableBlock} {name : String} (vs : List ShaderVariable) :
    name ∈ (b.addAll vs).names ↔ name ∈ b.names ∨ ∃ v ∈ vs, v.name = name := by
  rw [mem_names_iff, mem_names_iff, get?_addAll, Option.isSome_or, Bool.or_eq_true,
    List.find?_isSome]
  simp only [decide_eq_true_eq]

theorem mem_of_mem_add {b : VariableBlock} {v w : ShaderVariable} (h : v ∈ (b.add w).entries) :
    v ∈ b.entries ∨ v = w := by
  unfold add at h
  split at h
  · exact .inl h
  · rcases List.mem_append.mp h with h | h
    · exact .inl h
    · exact .inr (List.mem_singleton.mp h)

/-- A variable of a block is one that it had or one of those that were registered. -/
theorem mem_of_mem_addAll {b : VariableBlock} {v : ShaderVariable} {vs : List ShaderVariable}
    (h : v ∈ (b.addAll vs).entries) : v ∈ b.entries ∨ v ∈ vs := by
  induction vs generalizing b with
  | nil => exact .inl h
  | cons w rest ih =>
    rcases ih h with hv | hv
    · rcases mem_of_mem_add hv with hv | rfl
      · exact .inl hv
      · exact .inr List.mem_cons_self
    · exact .inr (List.mem_cons_of_mem _ hv)

/-- In a block of different names a variable is found under its name. -/
theorem get?_of_mem {b : VariableBlock} {v : ShaderVariable} (h : b.names.Nodup)
    (hv : v ∈ b.entries) : b.get? v.name = some v := by
  have hname : v.name ∈ b.names := List.mem_map_of_mem hv
  obtain ⟨w, hw⟩ := Option.isSome_iff_exists.mp (mem_names_iff.mp hname)
  have hsame : w.name = v.name := by simpa using List.find?_some hw
  rw [hw, List.inj_on_of_nodup_map h (List.mem_of_find?_eq_some hw) hv hsame]

end VariableBlock

namespace Graph

/-- The node of `q` has the name of the node of `p` with an underscore and `s` after it, and the
identifier of the input of `p` begins with this `s`. -/
def Parameter.RunsInto (p q : Parameter) : Prop :=
  ∃ s, q.nodeName = p.nodeName ++ "_" ++ s ∧
    Glsl.identifier p.inputName = s ++ "_" ++ Glsl.identifier q.inputName

/-- Two parameters collide: their inputs are named by one identifier and their nodes by one name, or
the name of one node runs into the name of the input of the other. -/
def Parameter.Collides (p q : Parameter) : Prop :=
  (p.nodeName = q.nodeName ∧ Glsl.identifier p.inputName = Glsl.identifier q.inputName) ∨
    p.RunsInto q ∨ q.RunsInto p

/-- Every parameter has its uniform, and only parameters of one input of one node share one. -/
def KeepsParameters (uniforms : VariableBlock) (parameters : List Parameter) : Prop :=
  ∀ p ∈ parameters, uniforms.get? p.uniformName = some p.uniform ∧
    ∀ q ∈ parameters, q.uniformName = p.uniformName →
      q.nodeName = p.nodeName ∧ q.inputName = p.inputName

variable {r : Request} {depth : Nat} {path : String} {g : ShaderGraph} {b : Build}
  {p q : Parameter}

/-- Two parameters ask for one uniform exactly if they collide. -/
theorem uniformName_eq_iff : p.uniformName = q.uniformName ↔ p.Collides q :=
  Text.separated_eq_iff rfl

/-- The uniform under the name that a parameter asks for is the one of the first parameter that asks
for this name. -/
theorem get?_uniforms (b : Build) (name : String) :
    b.uniforms.get? name = (b.parameters.find? (·.uniformName = name)).map (·.uniform) := by
  unfold Build.uniforms
  rw [VariableBlock.get?_addAll, List.find?_map]
  rfl

/-- The name of a uniform is made of the characters of identifiers. -/
theorem Sound.identifier_uniformName (h : Sound b) (hp : p ∈ b.parameters) :
    ∀ c ∈ p.uniformName.toList, Glsl.isIdentifierChar c = true := by
  intro c hc
  rw [Parameter.uniformName, String.toList_append, String.toList_append] at hc
  rcases List.mem_append.mp hc with hc | hc
  · rcases List.mem_append.mp hc with hc | hc
    · exact h.identifier _ (h.parameter_named p hp) c hc
    · obtain rfl := List.mem_singleton.mp hc
      rfl
  · exact FreshName.isIdentifierChar_of_mem_identifier hc

/-- The names of public uniforms are identifiers. -/
theorem isIdentifierChar_of_mem_uniforms (h : graphWithin r depth path = .ok g) {name : String}
    {v : ShaderVariable} (hname : g.uniforms.get? name = some v) {c : Char} (hc : c ∈ name.toList) :
    Glsl.isIdentifierChar c = true := by
  obtain ⟨⟨root, b⟩, hbuild, rfl⟩ := map_ok.mp h
  obtain ⟨hsound, -⟩ := buildWithin_sound hbuild
  change b.uniforms.get? name = some v at hname
  rw [get?_uniforms] at hname
  obtain ⟨p, hp, -⟩ := Option.map_eq_some_iff.mp hname
  have huniform : p.uniformName = name := by simpa using List.find?_some hp
  exact hsound.identifier_uniformName (List.mem_of_find?_eq_some hp) c (huniform ▸ hc)

/-- Public uniforms have different names. -/
theorem nodup_names_uniforms (h : graphWithin r depth path = .ok g) : g.uniforms.names.Nodup := by
  obtain ⟨⟨root, b⟩, -, rfl⟩ := map_ok.mp h
  have hnothing : VariableBlock.names {} = [] := rfl
  exact VariableBlock.nodup_names_addAll (hnothing ▸ List.nodup_nil) _

/-- If no two parameters collide, the first that asks for a name is the only one. -/
theorem keepsParameters_of_no_collision
    (h : ∀ p ∈ b.parameters, ∀ q ∈ b.parameters, p.Collides q → p = q) :
    KeepsParameters b.uniforms b.parameters := by
  intro p hp
  refine ⟨?_, fun q hq hname => ?_⟩
  · rw [get?_uniforms]
    cases hfind : b.parameters.find? (·.uniformName = p.uniformName) with
    | none => exact absurd (List.find?_eq_none.mp hfind p hp) (by simp)
    | some q =>
      have hname : q.uniformName = p.uniformName := by simpa using List.find?_some hfind
      have hq := List.mem_of_find?_eq_some hfind
      rw [Option.map_some, h q hq p hp (uniformName_eq_iff.mp hname)]
  · rw [h q hq p hp (uniformName_eq_iff.mp hname)]
    exact ⟨rfl, rfl⟩

/-- The uniform of a parameter holds all of it but its node, and the path of the node goes with the
name. -/
theorem KeepsParameters.eq_of_collides (h : KeepsParameters b.uniforms b.parameters)
    (hb : Sound b) (hp : p ∈ b.parameters) (hq : q ∈ b.parameters) (hc : p.Collides q) :
    p = q := by
  have hname := uniformName_eq_iff.mpr hc
  obtain ⟨hgetp, hshare⟩ := h p hp
  obtain ⟨hgetq, -⟩ := h q hq
  have huniform : p.uniform = q.uniform := by
    rw [← hname, hgetp] at hgetq
    exact Option.some.inj hgetq
  obtain ⟨hnode, hinput⟩ := hshare q hq hname.symm
  have hpath := hb.parameter_path q hq p hp hnode
  obtain ⟨-, htype, hvalue, -⟩ := ShaderVariable.mk.inj huniform
  cases p
  cases q
  simp only at hnode hinput hpath htype hvalue
  rw [hnode, hinput, hpath, htype, hvalue]

/-- A node `a` with an input `b_c`, and a node `a_b` with an input `c`. -/
def Sample.collision : Request :=
  request
    [definition "mix" "float" [input "in" "float", input "b_c" "float" [("value", "0.5")]],
      implementation "mix" "\x7b\x7bin\x7d\x7d + \x7b\x7bb_c\x7d\x7d",
      definition "tone" "float" [input "c" "float" [("value", "0.25")]],
      implementation "tone" "\x7b\x7bc\x7d\x7d",
      node "mix" "a" "float" [link "in" "a_b"], node "tone" "a_b" "float" []]

end Graph

end MaterialViewer
