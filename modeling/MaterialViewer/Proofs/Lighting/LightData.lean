import Mathlib.Data.List.Basic
import Mathlib.Data.List.Sigma
import MaterialViewer.Proofs.Device.Uniforms
import MaterialViewer.Proofs.Graph.FreshName
import MaterialViewer.Proofs.Graph.Uniforms
import MaterialViewer.Proofs.Number.Integer
import MaterialViewer.Proofs.Rendering.Material
import MaterialViewer.Proofs.Shader.Parts

/-!
# Proofs: the data of lights

The generator gives each input of a light a field, named by the identifier of the input; of inputs
with one identifier the first has the field. A renderer writes the data of a light in order, each
value under the plain name of its input. So a light arrives whole exactly if the last value written
to each of its fields is the one that belongs there.
-/

namespace MaterialViewer

namespace GeneratedShader

/-- The name of a field of the data of a light, with a text for the number of the light. -/
def fieldName (number : List Char) (field : String) : String :=
  s!"{Uniforms.lightData}[{String.ofList number}].{field}"

theorem toList_fieldName (number : List Char) (field : String) :
    (fieldName number field).toList =
      "u_lightData[".toList ++ (number ++ ']' :: '.' :: field.toList) := by
  have hname : fieldName number field =
      "u_lightData" ++ "[" ++ String.ofList number ++ "]." ++ field := rfl
  rw [hname]
  simp [String.toList_append]

theorem toList_lightDataUniform (index : Nat) (field : String) :
    (lightDataUniform index field).toList =
      "u_lightData[".toList ++ (Number.natText index ++ ']' :: '.' :: field.toList) :=
  toList_fieldName (Number.natText index) field

theorem bracket_not_mem {number : List Char} {index : Nat} (h : Number.StandsFor number index) :
    ']' ∉ number := by
  obtain ⟨sign, zeros, hsign, rfl⟩ := h
  intro hmem
  rcases List.mem_append.mp hmem with hmem | hmem
  · rcases hsign with rfl | rfl
    · cases hmem
    · exact absurd (List.mem_singleton.mp hmem) (by decide)
  · exact absurd (Number.isDigit_of_mem_zeros_natText ']' hmem) (by decide)

/-- Lists are cut at the first place of an element in one way. -/
theorem eq_of_append_cons {α : Type} {c : α} {xs ys xs' ys' : List α} (hxs : c ∉ xs)
    (hxs' : c ∉ xs') (h : xs ++ c :: ys = xs' ++ c :: ys') : xs = xs' ∧ ys = ys' := by
  induction xs generalizing xs' with
  | nil =>
    cases xs' with
    | nil => exact ⟨rfl, (List.cons.inj h).2⟩
    | cons x rest => exact absurd ((List.cons.inj h).1 ▸ List.mem_cons_self) hxs'
  | cons x rest ih =>
    cases xs' with
    | nil => exact absurd ((List.cons.inj h).1 ▸ List.mem_cons_self) hxs
    | cons x' rest' =>
      obtain ⟨rfl, hrest⟩ := List.cons.inj h
      obtain ⟨rfl, rfl⟩ := ih (fun hc => hxs (List.mem_cons_of_mem _ hc))
        (fun hc => hxs' (List.mem_cons_of_mem _ hc)) hrest
      exact ⟨rfl, rfl⟩

/-- The name of a field is that of one light and one field, however its number is written. -/
theorem fieldName_inj {xs ys : List Char} {i j : Nat} {f g : String} (hi : Number.StandsFor xs i)
    (hj : Number.StandsFor ys j) (h : fieldName xs f = fieldName ys g) : xs = ys ∧ f = g := by
  have hlist := congrArg String.toList h
  rw [toList_fieldName, toList_fieldName, List.append_cancel_left_eq] at hlist
  obtain ⟨hnumber, hfield⟩ := eq_of_append_cons (bracket_not_mem hi) (bracket_not_mem hj) hlist
  exact ⟨hnumber, String.toList_injective (List.cons.inj hfield).2⟩

theorem lightDataUniform_inj {i j : Nat} {f g : String}
    (h : lightDataUniform i f = lightDataUniform j g) : i = j ∧ f = g := by
  obtain ⟨hnumber, hfield⟩ :=
    fieldName_inj (Number.natText_standsFor i) (Number.natText_standsFor j) h
  exact ⟨FreshName.natText_injective hnumber, hfield⟩

/-- No other uniform that is written for lighting has the name of a field. -/
theorem lightDataUniform_not_mem (index : Nat) (field : String) :
    lightDataUniform index field ∉ Uniforms.activeLights :: ShaderBinding.environmentUniforms := by
  have hthird : (lightDataUniform index field).toList[2]? = some 'l' := by
    rw [toList_lightDataUniform]
    rfl
  have hothers : ∀ name ∈ Uniforms.activeLights :: ShaderBinding.environmentUniforms,
      name.toList[2]? ≠ some 'l' := by decide +kernel
  exact fun hmem => hothers _ hmem hthird

end GeneratedShader

/-! ## Lights on the device -/

/-- The value written last to a field, among those that belong to the data of a light. -/
def Light.written? (light : Light) (field : String) : Option UniformValue :=
  Ordered.get? field (ShaderBinding.lightFields light).reverse

/-- A light arrives whole: the field for its kind holds the number of the kind, and every input that
has a form as uniform has a field of its type which holds the value of the input. -/
structure Light.IsHeld (light : Light) (fields : VariableBlock)
    (held? : String → Option UniformValue) : Prop where
  kind : held? LightKinds.typeField = some (.count light.kind)
  inputs : ∀ name value u, (name, value) ∈ light.inputs → UniformValue.ofValue? value = some u →
    ∃ field, fields.get? (Glsl.identifier name) = some field ∧
      Glsl.typeName? field.type = Glsl.typeName? value.type ∧
      held? (Glsl.identifier name) = some u

namespace ShaderBinding

open GeneratedShader (lightDataUniform lightDataUniform_inj lightDataUniform_not_mem)

variable {b : ShaderBinding} {r : Renderer Headless} {i j : Nat} {field : String}

theorem setLightField_isLive {p : ProgramId} (h : r.device.IsLive p)
    (entry : String × UniformValue) : (b.setLightField i r entry).device.IsLive p :=
  ((b.setLightField_drivenBy i r entry).steady fun _ => Gives.isQuiet).live p h

theorem uniform?_setLightField (hlive : r.device.IsLive b.program.id)
    (entry : String × UniformValue) :
    (b.setLightField i r entry).device.uniform? b.program.id (lightDataUniform j field) =
      if i = j ∧ entry.1 = field ∧ b.shader.hasLightField j field = true then some entry.2
      else r.device.uniform? b.program.id (lightDataUniform j field) := by
  unfold setLightField
  by_cases hfield : b.shader.hasLightField i entry.1 = true
  · rw [if_pos hfield]
    refine (Headless.uniform?_setUniform hlive _ _ _).trans ?_
    by_cases hname : lightDataUniform i entry.1 = lightDataUniform j field
    · obtain ⟨rfl, rfl⟩ := lightDataUniform_inj hname
      rw [if_pos rfl, if_pos ⟨rfl, rfl, hfield⟩]
    · rw [if_neg hname, if_neg]
      rintro ⟨rfl, rfl, -⟩
      exact hname rfl
  · rw [if_neg hfield, if_neg]
    rintro ⟨rfl, rfl, h⟩
    exact hfield h

/-- Writing the data of one light: a field that there is holds the value written last to it. -/
theorem uniform?_setLightFields (entries : List (String × UniformValue))
    (hlive : r.device.IsLive b.program.id) :
    (entries.foldl (b.setLightField i) r).device.uniform? b.program.id (lightDataUniform j field) =
      if i = j ∧ b.shader.hasLightField j field = true then
        (Ordered.get? field entries.reverse).or
          (r.device.uniform? b.program.id (lightDataUniform j field))
      else r.device.uniform? b.program.id (lightDataUniform j field) := by
  induction entries generalizing r with
  | nil => rw [List.foldl_nil, List.reverse_nil, Ordered.get?, Option.none_or, ite_self]
  | cons entry rest ih =>
    rw [List.foldl_cons, ih (setLightField_isLive hlive entry), uniform?_setLightField hlive,
      List.reverse_cons, Ordered.get?_append]
    by_cases hij : i = j ∧ b.shader.hasLightField j field = true
    · rw [if_pos hij, if_pos hij, Option.or_assoc]
      congr 1
      by_cases hname : entry.1 = field
      · rw [if_pos ⟨hij.1, hname, hij.2⟩, Ordered.get?, if_pos hname, Option.some_or]
      · rw [if_neg fun h => hname h.2.1, Ordered.get?, if_neg hname, Ordered.get?, Option.none_or]
    · rw [if_neg hij, if_neg hij, if_neg fun h => hij ⟨h.1, h.2.2⟩]

/-- Write the data of several lights. -/
def setLights (b : ShaderBinding) (lights : List (Light × Nat)) (r : Renderer Headless) :
    Renderer Headless :=
  lights.foldl (fun r light => (lightFields light.1).foldl (b.setLightField light.2) r) r

theorem setLights_isLive (lights : List (Light × Nat)) (h : r.device.IsLive b.program.id) :
    (b.setLights lights r).device.IsLive b.program.id := by
  have hdriven : Renderer.DrivenBy b.Gives r (b.setLights lights r) :=
    Renderer.foldl_drivenBy lights (fun light _ r =>
      Renderer.foldl_drivenBy _ (fun entry _ r => b.setLightField_drivenBy light.2 r entry) r) r
  exact (hdriven.steady fun _ => Gives.isQuiet).live _ h

theorem uniform?_setLights_of_not_mem (lights : List (Light × Nat))
    (hlive : r.device.IsLive b.program.id) (hi : i ∉ lights.map (·.2)) :
    (b.setLights lights r).device.uniform? b.program.id (lightDataUniform i field) =
      r.device.uniform? b.program.id (lightDataUniform i field) := by
  induction lights generalizing r with
  | nil => rfl
  | cons light rest ih =>
    rw [List.map_cons, List.mem_cons, not_or] at hi
    have hhead : (b.setLights [light] r).device.IsLive b.program.id := setLights_isLive _ hlive
    refine (ih hhead hi.2).trans ?_
    refine (uniform?_setLightFields _ hlive).trans ?_
    rw [if_neg fun h => hi.1 h.1.symm]

/-- Of lights with different positions each field that there is holds the value written last to it
for the light at its position. -/
theorem uniform?_setLights {light : Light} {lights : List (Light × Nat)}
    (hlive : r.device.IsLive b.program.id) (hnodup : (lights.map (·.2)).Nodup)
    (hmem : (light, i) ∈ lights) (hfield : b.shader.hasLightField i field = true) :
    (b.setLights lights r).device.uniform? b.program.id (lightDataUniform i field) =
      (light.written? field).or (r.device.uniform? b.program.id (lightDataUniform i field)) := by
  obtain ⟨before, after, rfl⟩ := List.append_of_mem hmem
  rw [List.map_append, List.map_cons, List.nodup_append] at hnodup
  obtain ⟨-, hafter, hbefore⟩ := hnodup
  have hfirst : (b.setLights before r).device.IsLive b.program.id := setLights_isLive _ hlive
  have hown : (b.setLights [(light, i)] (b.setLights before r)).device.IsLive b.program.id :=
    setLights_isLive _ hfirst
  have hsplit : b.setLights (before ++ (light, i) :: after) r =
      b.setLights after (b.setLights [(light, i)] (b.setLights before r)) := by
    unfold setLights
    rw [List.foldl_append, List.foldl_cons, List.foldl_cons, List.foldl_nil]
  rw [hsplit, uniform?_setLights_of_not_mem after hown (List.nodup_cons.1 hafter).1]
  refine (uniform?_setLightFields _ hfirst).trans ?_
  rw [if_pos ⟨rfl, hfield⟩, uniform?_setLights_of_not_mem before hlive]
  · rfl
  · intro hin
    exact hbefore i hin i List.mem_cons_self rfl

end ShaderBinding

/-! ## Lights of a document -/

open GeneratedShader (lightDataUniform lightDataUniform_not_mem)

theorem LightKinds.get?_typeField (k : LightKinds) (d : Document) :
    (k.fields d).get? typeField = some { name := typeField, type := .integer } := by
  unfold fields
  exact VariableBlock.get?_addAll _ _ typeField

/-- A bound material writes the data of the lights of a rig so that every light for which there is
room arrives whole, whatever was written to its program before. -/
def Material.HoldsLights (m : Material) (b : ShaderBinding) (rig : LightRig) : Prop :=
  ∀ (files : FileTree) (search : SearchPath) (environment : EnvironmentLighting)
    (r : Renderer Headless), r.device.IsLive b.program.id →
    ∃ m' r', m.bindLights files search rig environment r = .ok (m', r') ∧
      ∀ (i : Nat) (light : Light), (rig.lights.take b.shader.maxLights)[i]? = some light →
        light.IsHeld b.shader.lightData fun field =>
          r'.device.uniform? b.program.id (lightDataUniform i field)

/-- The data of lights is written last, and nothing else that is written for lighting touches it. -/
theorem ShaderBinding.bindLights_eq (b : ShaderBinding) (files : FileTree) (search : SearchPath)
    (rig : LightRig) (environment : EnvironmentLighting) (r : Renderer Headless) :
    ∃ b₁ r₁, b.Alike b₁ ∧
      (b.bindLights files search rig environment r).2 =
        b₁.setLights (rig.lights.take b₁.shader.maxLights).zipIdx r₁ ∧
      (∀ p, r.device.IsLive p → r₁.device.IsLive p) ∧
      ∀ p i field, r₁.device.uniform? p (lightDataUniform i field) =
        r.device.uniform? p (lightDataUniform i field) := by
  obtain ⟨halike, henvironment⟩ := b.bindEnvironment_spec files search environment r
  generalize hresult : b.bindEnvironment files search environment r = result at halike henvironment
  obtain ⟨b₁, r₁⟩ := result
  let count := if environment.direct then min rig.lights.length b₁.shader.maxLights else 0
  let written := Uniforms.activeLights :: environmentUniforms
  have hactive := b₁.set_drivenBy Uniforms.activeLights (.count count) r₁
  have hdriven : Renderer.DrivenBy (b.GivesFor written) r
      (b₁.set Uniforms.activeLights (.count count) r₁) := by
    refine (henvironment.mono fun _ => ?_).trans (hactive.mono fun _ h => ?_)
    · exact GivesFor.mono fun _ hin => List.mem_cons_of_mem _ hin
    · refine (halike.givesFor h).mono fun _ hin => ?_
      rw [List.mem_singleton.1 hin]
      exact List.mem_cons_self
  have hquiet : ∀ c, b.GivesFor written c → c.IsQuiet := fun _ h => h.gives.isQuiet
  refine ⟨b₁, _, halike, ?_, (hdriven.steady hquiet).live, fun p i field => ?_⟩
  · unfold bindLights
    rw [hresult]
    rfl
  · refine Headless.uniform?_of_driven hdriven.device hquiet fun value h => ?_
    exact lightDataUniform_not_mem i field (h.uniform p _ value rfl)

/-- After the lights were bound, each field that there is holds the value written last to it for the
light at its position. -/
theorem ShaderBinding.uniform?_bindLights {b : ShaderBinding} {rig : LightRig}
    {r : Renderer Headless} {light : Light} {i : Nat} {field : String}
    (hlive : r.device.IsLive b.program.id)
    (hlight : (rig.lights.take b.shader.maxLights)[i]? = some light)
    (hfield : b.shader.hasLightField i field = true) (files : FileTree) (search : SearchPath)
    (environment : EnvironmentLighting) :
    (b.bindLights files search rig environment r).2.device.uniform? b.program.id
        (lightDataUniform i field) =
      (light.written? field).or (r.device.uniform? b.program.id (lightDataUniform i field)) := by
  obtain ⟨b₁, r₁, ⟨hshader, hprogram, -⟩, heq, hlive₁, hsame⟩ :=
    b.bindLights_eq files search rig environment r
  have hmem : (light, i) ∈ (rig.lights.take b₁.shader.maxLights).zipIdx := by
    rw [List.mk_mem_zipIdx_iff_getElem?, hshader]
    exact hlight
  rw [heq, ← hsame, ← hprogram]
  exact uniform?_setLights (hprogram ▸ hlive₁ _ hlive) (List.nodup_zipIdx_map_snd _) hmem
    (hshader ▸ hfield)

section

variable {g : ShaderGenerator} {d : Document} {files : FileTree} {path : String}
  {options : GeneratorOptions} {m : Material} {b : ShaderBinding} {rig : LightRig} {light : Light}
  {i : Nat} {field : String}

theorem Material.bindLights_of_bound (hbound : m.state = .bound b) (files : FileTree)
    (search : SearchPath) (rig : LightRig) (environment : EnvironmentLighting)
    (r : Renderer Headless) :
    m.bindLights files search rig environment r =
      .ok (m.withBound (b.bindLights files search rig environment r).1,
        (b.bindLights files search rig environment r).2) := by
  have hm : m = m.withBound b := by
    unfold withBound
    rw [← hbound]
  rw [hm]
  rfl

/-- A light that a generated shader has room for finds the fields that the generator made. -/
theorem lightData_of_light (hgenerate : g.generate d files path options = .ok b.shader)
    (hkinds : g.lights = rig.kinds)
    (hlight : (rig.lights.take b.shader.maxLights)[i]? = some light) :
    b.shader.lightData = rig.kinds.fields d ∧
      ∀ field, ((rig.kinds.fields d).get? field).isSome = true →
        b.shader.hasLightField i field = true := by
  have hlt := (List.getElem?_eq_some_iff.1 hlight).1
  rw [List.length_take] at hlt
  have hmax : i < b.shader.maxLights := by omega
  have hdata : b.shader.lightData = rig.kinds.fields d := by
    rw [← hkinds]
    exact generate_lightData hgenerate (by omega)
  refine ⟨hdata, fun field hfield => ?_⟩
  unfold GeneratedShader.hasLightField GeneratedShader.lightField?
  rw [if_pos hmax, hdata]
  exact hfield

theorem LightKinds.typeField_isSome (k : LightKinds) (d : Document) :
    ((k.fields d).get? typeField).isSome = true := by
  rw [get?_typeField]
  rfl

/-- If the right values are written last, the lights arrive whole. -/
theorem holdsLights_of_written (hgenerate : g.generate d files path options = .ok b.shader)
    (hkinds : g.lights = rig.kinds) (hbound : m.state = .bound b)
    (hwritten : ∀ light ∈ rig.lights.take b.shader.maxLights,
      light.IsHeld (rig.kinds.fields d) light.written?) : m.HoldsLights b rig := by
  intro files search environment r hlive
  refine ⟨_, _, Material.bindLights_of_bound hbound files search rig environment r, ?_⟩
  intro i light hlight
  obtain ⟨hdata, hhas⟩ := lightData_of_light hgenerate hkinds hlight
  obtain ⟨hkind, hinputs⟩ := hwritten light (List.mem_of_getElem? hlight)
  have hvalue : ∀ field u, ((rig.kinds.fields d).get? field).isSome = true →
      light.written? field = some u →
      (b.bindLights files search rig environment r).2.device.uniform? b.program.id
        (lightDataUniform i field) = some u := by
    intro field u hfield hu
    rw [ShaderBinding.uniform?_bindLights hlive hlight (hhas field hfield), hu, Option.some_or]
  refine ⟨hvalue _ _ (rig.kinds.typeField_isSome d) hkind, fun name value u hin hu => ?_⟩
  obtain ⟨field, hget, htype, hheld⟩ := hinputs name value u hin hu
  rw [hdata]
  exact ⟨field, hget, htype, hvalue _ _ (by rw [hget]; rfl) hheld⟩

/-- If the lights arrive whole, also in a program to which nothing was written before, the right
values are written last. -/
theorem written_of_holdsLights (hgenerate : g.generate d files path options = .ok b.shader)
    (hkinds : g.lights = rig.kinds) (hbound : m.state = .bound b) (hholds : m.HoldsLights b rig) :
    ∀ light ∈ rig.lights.take b.shader.maxLights,
      light.IsHeld (rig.kinds.fields d) light.written? := by
  intro light hmem
  obtain ⟨i, hlight⟩ := List.mem_iff_getElem?.1 hmem
  obtain ⟨hdata, hhas⟩ := lightData_of_light hgenerate hkinds hlight
  let r : Renderer Headless := { device := Headless.blank b.program.id }
  have hlive : r.device.IsLive b.program.id := Headless.blank_isLive b.program.id
  have hblank : ∀ name, r.device.uniform? b.program.id name = none :=
    Headless.blank_uniform? b.program.id
  obtain ⟨m', r', hbind, hall⟩ := hholds (.empty []) {} {} r hlive
  rw [Material.bindLights_of_bound hbound] at hbind
  obtain ⟨-, rfl⟩ := Prod.mk.inj (Except.ok.inj hbind)
  have hvalue : ∀ field, ((rig.kinds.fields d).get? field).isSome = true →
      (b.bindLights (.empty []) {} rig {} r).2.device.uniform? b.program.id
        (lightDataUniform i field) = light.written? field := by
    intro field hfield
    rw [ShaderBinding.uniform?_bindLights hlive hlight (hhas field hfield), hblank, Option.or_none]
  obtain ⟨hkind, hinputs⟩ := hall i light hlight
  rw [hdata] at hinputs
  refine ⟨(hvalue _ (rig.kinds.typeField_isSome d)).symm.trans hkind, fun name value u hin hu => ?_⟩
  obtain ⟨field, hget, htype, hheld⟩ := hinputs name value u hin hu
  exact ⟨field, hget, htype, (hvalue _ (by rw [hget]; rfl)).symm.trans hheld⟩

end

/-- The lights of a document arrive whole in a shader of the document exactly if, for each light that
there is room for, the last value written to each field is the one that belongs there. -/
theorem holdsLights_iff {g : ShaderGenerator} {d : Document} {files : FileTree} {path : String}
    {options : GeneratorOptions} {m : Material} {b : ShaderBinding}
    (hgenerate : g.generate d files path options = .ok b.shader)
    (hkinds : g.lights = (LightRig.ofDocument d).kinds) (hbound : m.state = .bound b) :
    m.HoldsLights b (LightRig.ofDocument d) ↔
      ∀ light ∈ (LightRig.ofDocument d).lights.take b.shader.maxLights,
        light.IsHeld ((LightRig.ofDocument d).kinds.fields d) light.written? :=
  ⟨written_of_holdsLights hgenerate hkinds hbound, holdsLights_of_written hgenerate hkinds hbound⟩

/-! ## Plain inputs -/

theorem get?_of_mem {α : Type} {entries : List (String × α)} {key : String} {value : α}
    (hnodup : (entries.map (·.1)).Nodup) (hmem : (key, value) ∈ entries) :
    Ordered.get? key entries = some value := by
  induction entries with
  | nil => cases hmem
  | cons entry rest ih =>
    rw [List.map_cons, List.nodup_cons] at hnodup
    rcases List.mem_cons.1 hmem with rfl | hmem
    · rw [Ordered.get?, if_pos rfl]
    · rw [Ordered.get?, if_neg, ih hnodup.2 hmem]
      rintro hkey
      exact hnodup.1 (hkey ▸ List.mem_map_of_mem hmem)

/-- A light whose inputs are named by different identifiers other than `type` arrives whole, if no
other kind of light has an input with one of these names and another type before. -/
theorem Light.isHeld_of_plain {light : Light} {fields : VariableBlock}
    (hnodup : (light.inputs.map (·.1)).Nodup)
    (hname : ∀ input ∈ light.inputs, Glsl.identifier input.1 = input.1 ∧
      input.1 ≠ LightKinds.typeField)
    (hfield : ∀ input ∈ light.inputs, (UniformValue.ofValue? input.2).isSome = true →
      ∃ field, fields.get? input.1 = some field ∧
        Glsl.typeName? field.type = Glsl.typeName? input.2.type) :
    light.IsHeld fields light.written? := by
  have hsublist : ((ShaderBinding.lightFields light).map (·.1)).Sublist
      (LightKinds.typeField :: light.inputs.map (·.1)) := by
    unfold ShaderBinding.lightFields
    rw [List.map_cons]
    refine List.Sublist.cons_cons _ ?_
    induction light.inputs with
    | nil => exact List.Sublist.refl _
    | cons input rest ih =>
      obtain ⟨name, value⟩ := input
      rw [List.filterMap_cons, List.map_cons]
      dsimp only
      cases UniformValue.ofValue? value with
      | none => exact ih.cons _
      | some u => exact ih.cons_cons _
  have hkeys : (LightKinds.typeField :: light.inputs.map (·.1)).Nodup := by
    refine List.nodup_cons.2 ⟨fun hin => ?_, hnodup⟩
    obtain ⟨input, hinput, htype⟩ := List.mem_map.1 hin
    exact (hname input hinput).2 htype
  have hwritten : ∀ key value, (key, value) ∈ ShaderBinding.lightFields light →
      light.written? key = some value := by
    intro key value hmem
    refine get?_of_mem ?_ (List.mem_reverse.2 hmem)
    rw [List.map_reverse, List.nodup_reverse]
    exact hsublist.nodup hkeys
  refine ⟨hwritten _ _ List.mem_cons_self, fun name value u hin hu => ?_⟩
  obtain ⟨field, hget, htype⟩ := hfield _ hin (by rw [hu]; rfl)
  rw [(hname _ hin).1]
  refine ⟨field, hget, htype, hwritten _ _ (List.mem_cons_of_mem _ ?_)⟩
  exact List.mem_filterMap.2 ⟨(name, value), hin, by simp only [hu, Option.map_some]⟩

/-! ## A light that is dropped -/

open Graph.Sample in
/-- A document with a surface, and a light with an input whose name is not an identifier. -/
def lampDocument : Document :=
  (request
    [definition "lamp" "lightshader" [input "cone-angle" "integer" [("value", "45")]],
      node "lamp" "lamp1" "lightshader" [],
      definition "paint" "surfaceshader" [],
      implementation "paint" "surfaceshader(vec3(0.0), vec3(0.0))",
      node "paint" "top" "surfaceshader" []]).document

/-- The shader for the surface, generated for the lights of the document. -/
def lampShader : Except GenerationError GeneratedShader :=
  ShaderGenerator.generate { lights := (LightRig.ofDocument lampDocument).kinds } lampDocument
    (.empty []) "top" {}

/-- The bound material for a shader. -/
def boundTo (shader : GeneratedShader) : ShaderBinding :=
  .new shader ⟨⟨1⟩, shader.name, ⟨shader.vertexSource, shader.pixelSource⟩⟩

theorem lampShader_ok : ∃ shader, lampShader = .ok shader ∧ shader.maxLights = 3 := by
  have heval : lampShader.toOption.map (·.maxLights) = some 3 := by decide +kernel
  exact Graph.Sample.exists_ok_of_map heval

theorem lights_lamp : (LightRig.ofDocument lampDocument).lights =
    [{ path := "lamp1", nodeDef := "ND_lamp", kind := 1, inputs := [("cone-angle", .integer 45)] }] := by
  decide +kernel

theorem holdsLights_iff_lamp : ∃ shader, lampShader = .ok shader ∧
    (Material.HoldsLights { element := "top", state := .bound (boundTo shader) } (boundTo shader)
        (LightRig.ofDocument lampDocument) ↔
      ∀ light ∈ (LightRig.ofDocument lampDocument).lights.take shader.maxLights,
        light.IsHeld ((LightRig.ofDocument lampDocument).kinds.fields lampDocument)
          light.written?) := by
  obtain ⟨shader, hshader, -⟩ := lampShader_ok
  exact ⟨shader, hshader, holdsLights_iff (b := boundTo shader) hshader rfl rfl⟩

/-- The value of the input `cone-angle` is never written, because its field is `cone_angle`. -/
theorem not_holdsLights_lamp : ∃ shader, lampShader = .ok shader ∧
    ¬ Material.HoldsLights { element := "top", state := .bound (boundTo shader) } (boundTo shader)
      (LightRig.ofDocument lampDocument) := by
  obtain ⟨shader, hshader, hmax⟩ := lampShader_ok
  refine ⟨shader, hshader, fun hholds => ?_⟩
  have hwritten := written_of_holdsLights (b := boundTo shader) hshader rfl rfl hholds
  have hroom : (boundTo shader).shader.maxLights = 3 := hmax
  rw [lights_lamp, hroom] at hwritten
  obtain ⟨-, hinputs⟩ := hwritten _ List.mem_cons_self
  obtain ⟨field, -, -, hheld⟩ :=
    hinputs "cone-angle" (.integer 45) (.int 45) List.mem_cons_self rfl
  exact absurd hheld (by decide +kernel)

end MaterialViewer
