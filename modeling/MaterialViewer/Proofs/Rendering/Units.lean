import Mathlib.Data.List.Nodup
import MaterialViewer.Proofs.Rendering.Binding
import MaterialViewer.Proofs.Shader.Uniforms

/-!
# Proofs: texture units

Samplers are numbered in order. A name that comes twice moves to a later unit, which is then shared
with the next name; but a name that comes once has a unit that no other name has. The images of a
generated shader have different names, so each has a unit of its own, unless it has the name of a
map of the environment.
-/

namespace MaterialViewer.ShaderBinding

/-- The name has this unit, and no other name has it, nor will the next one. -/
structure OwnsUnit (units : List (String × Nat)) (name : String) (unit : Nat) : Prop where
  has : Ordered.get? name units = some unit
  alone : ∀ other, Ordered.get? other units = some unit → other = name
  below : unit < units.length

section Numbering

variable {units : List (String × Nat)} {name other : String} {unit : Nat} {names : List String}

/-- The samplers with one more, which has the next unit. -/
def number (units : List (String × Nat)) (name : String) : List (String × Nat) :=
  Ordered.put name units.length units

/-- The unit stays with the name while another one is numbered. -/
theorem OwnsUnit.number (h : OwnsUnit units name unit) (hne : other ≠ name) :
    OwnsUnit (number units other) name unit := by
  refine ⟨(Ordered.get?_put_of_ne hne.symm _ _).trans h.has, fun another hget => ?_,
    Nat.lt_of_lt_of_le h.below (Ordered.length_le_put _ _ _)⟩
  by_cases hsame : another = other
  · rw [hsame, ShaderBinding.number, Ordered.get?_put_self] at hget
    exact absurd (Option.some.inj hget) (Nat.ne_of_gt h.below)
  · rw [ShaderBinding.number, Ordered.get?_put_of_ne hsame] at hget
    exact h.alone another hget

theorem OwnsUnit.foldl_number (h : OwnsUnit units name unit) (hnot : name ∉ names) :
    OwnsUnit (names.foldl ShaderBinding.number units) name unit := by
  induction names generalizing units with
  | nil => exact h
  | cons first rest ih =>
    obtain ⟨hfirst, hrest⟩ := not_or.1 fun hmem => hnot (List.mem_cons.2 hmem)
    exact ih (h.number (Ne.symm hfirst)) hrest

theorem mem_of_foldl_number (h : Ordered.get? name (names.foldl number units) = some unit) :
    name ∈ names ∨ Ordered.get? name units = some unit := by
  induction names generalizing units with
  | nil => exact .inr h
  | cons other rest ih =>
    rcases ih h with hrest | hput
    · exact .inl (List.mem_cons_of_mem _ hrest)
    · by_cases hname : name = other
      · exact .inl (hname ▸ List.mem_cons_self)
      · exact .inr ((Ordered.get?_put_of_ne hname _ _).symm.trans hput)

/-- Only samplers have a unit. -/
theorem mem_of_numberSamplers (h : Ordered.get? name (numberSamplers names) = some unit) :
    name ∈ names := (mem_of_foldl_number h).resolve_right nofun

/-- Units are below the number of samplers. This can fail once a name has come twice. -/
def Bounded (units : List (String × Nat)) : Prop :=
  ∀ name unit, Ordered.get? name units = some unit → unit < units.length

theorem number_of_new (hnew : Ordered.get? name units = none) :
    number units name = units ++ [(name, units.length)] :=
  Ordered.put_of_get?_eq_none hnew _

theorem Bounded.number (h : Bounded units) (hnew : Ordered.get? name units = none) :
    Bounded (number units name) := by
  intro other unit hget
  rw [number_of_new hnew, List.length_append]
  by_cases hsame : other = name
  · rw [hsame, ShaderBinding.number, Ordered.get?_put_self] at hget
    exact Option.some.inj hget ▸ Nat.lt_succ_self _
  · rw [ShaderBinding.number, Ordered.get?_put_of_ne hsame] at hget
    exact Nat.lt_succ_of_lt (h other unit hget)

/-- A new name after names that came once has a unit of its own. -/
theorem Bounded.ownsUnit (h : Bounded units) (hnew : Ordered.get? name units = none) :
    OwnsUnit (ShaderBinding.number units name) name units.length := by
  refine ⟨Ordered.get?_put_self _ _ _, fun other hget => ?_, ?_⟩
  · by_cases hsame : other = name
    · exact hsame
    · rw [ShaderBinding.number, Ordered.get?_put_of_ne hsame] at hget
      exact absurd (h other _ hget) (Nat.lt_irrefl _)
  · rw [number_of_new hnew, List.length_append]
    exact Nat.lt_succ_self _

theorem Bounded.foldl_number (h : Bounded units) (hnodup : (names ++ [name]).Nodup)
    (hnew : ∀ other ∈ names ++ [name], Ordered.get? other units = none) :
    Bounded (names.foldl ShaderBinding.number units) ∧
      Ordered.get? name (names.foldl ShaderBinding.number units) = none := by
  induction names generalizing units with
  | nil => exact ⟨h, hnew name List.mem_cons_self⟩
  | cons first rest ih =>
    obtain ⟨hfirst, hrest⟩ := List.nodup_cons.1 hnodup
    refine ih (h.number (hnew first List.mem_cons_self)) hrest fun other hother => ?_
    have hne : other ≠ first := fun heq => hfirst (heq ▸ hother)
    exact (Ordered.get?_put_of_ne hne _ _).trans (hnew other (List.mem_cons_of_mem _ hother))

/-- A name that comes once, after names that come once as well, has a unit of its own. -/
theorem exists_ownsUnit {front back : List String} (hfront : (front ++ [name]).Nodup)
    (hback : name ∉ back) :
    ∃ unit, OwnsUnit (numberSamplers (front ++ name :: back)) name unit := by
  have hnothing : Bounded [] := fun _ _ hget => nomatch hget
  obtain ⟨hbounded, hnew⟩ := hnothing.foldl_number hfront fun _ _ => rfl
  have hsplit : numberSamplers (front ++ name :: back) =
      back.foldl number (number (front.foldl number []) name) := by
    show (front ++ name :: back).foldl number [] = _
    rw [List.foldl_append, List.foldl_cons]
  rw [hsplit]
  exact ⟨_, (hbounded.ownsUnit hnew).foldl_number hback⟩

end Numbering

/-! ## Images -/

/-- The binding is one of a generated shader: its samplers are numbered in order, and its public
uniforms have different names. -/
structure Regular (b : ShaderBinding) : Prop where
  units : b.units = numberSamplers (samplers b.shader)
  names : b.shader.publicUniforms.names.Nodup

variable {b b' : ShaderBinding} {v w : ShaderVariable}

theorem Regular.alike (h : b.Regular) (hb : b.Alike b') : b'.Regular := by
  refine ⟨?_, hb.shader ▸ h.names⟩
  rw [hb.units, hb.shader]
  exact h.units

theorem regular_new {g : ShaderGenerator} {d : Document} {files : FileTree} {path : String}
    {options : GeneratorOptions} {shader : GeneratedShader}
    (h : g.generate d files path options = .ok shader) (program : CompiledProgram) :
    (new shader program).Regular :=
  ⟨rfl, generate_nodup_names h⟩

theorem Regular.nodup_imageUniforms (h : b.Regular) :
    (b.shader.imageUniforms.map (·.name)).Nodup :=
  h.names.sublist (List.filter_sublist.map _)

/-- An image has its name alone. -/
theorem Regular.eq_of_name (h : b.Regular) (hv : v ∈ b.shader.imageUniforms)
    (hw : w ∈ b.shader.imageUniforms) (hname : v.name = w.name) : v = w :=
  List.inj_on_of_nodup_map h.nodup_imageUniforms hv hw hname

/-- An image has a unit of its own, unless it has the name of a map of the environment. -/
theorem Regular.exists_ownsUnit (h : b.Regular) (hv : v ∈ b.shader.imageUniforms)
    (hplain : v.name ∉ [Uniforms.envRadiance, Uniforms.envIrradiance]) :
    ∃ unit, OwnsUnit b.units v.name unit := by
  obtain ⟨front, back, hsplit⟩ := List.append_of_mem hv
  have hnames := h.nodup_imageUniforms
  rw [hsplit, List.map_append, List.map_cons, ← List.singleton_append, ← List.append_assoc,
    List.nodup_append] at hnames
  obtain ⟨hfront, -, hapart⟩ := hnames
  have hback : v.name ∉ back.map (·.name) ++
      [Uniforms.envRadiance, Uniforms.envIrradiance].filter b.shader.hasUniform := by
    intro hmem
    rcases List.mem_append.1 hmem with hmem | hmem
    · exact hapart v.name (List.mem_append_right _ List.mem_cons_self) v.name hmem rfl
    · exact hplain (List.mem_filter.1 hmem).1
  have hsamplers : samplers b.shader = front.map (·.name) ++ v.name :: (back.map (·.name) ++
      [Uniforms.envRadiance, Uniforms.envIrradiance].filter b.shader.hasUniform) := by
    unfold samplers
    rw [hsplit, List.map_append, List.map_cons, List.append_assoc, List.cons_append]
  rw [h.units, hsamplers]
  exact ShaderBinding.exists_ownsUnit hfront hback

end MaterialViewer.ShaderBinding
