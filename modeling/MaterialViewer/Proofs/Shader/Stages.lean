import MaterialViewer.Proofs.Number.Decimal
import MaterialViewer.Proofs.Shader.Names
import MaterialViewer.Proofs.Shader.Sources

/-!
# Proofs: the two stages of a shader

What the pixel stage reads of the geometry is passed on by the vertex stage. Both stages declare one
block of varyings, and the vertex stage assigns each of them once, from attributes and uniforms that
it declares. All nodes that read one set of texture coordinates share an attribute and a varying,
which have the type of the first of these nodes. So what the other nodes read has a type that is
not theirs if the types of the nodes differ, and nothing is declared if shaders do not know the type
of the first.
-/

namespace MaterialViewer

/-! ## Sets of texture coordinates -/

namespace Number

theorem minus_mem_int32Text {i : Int32} : '-' ∈ int32Text i ↔ i < 0 := by
  unfold int32Text
  split
  · rename_i hneg
    exact iff_of_true List.mem_cons_self hneg
  · rename_i hneg
    exact iff_of_false (fun hmem => absurd (isDigit_of_mem_natText hmem) (by decide)) hneg

theorem int32Text_injective : Function.Injective int32Text := by
  intro i j h
  have hsign : i < 0 ↔ j < 0 := by rw [← minus_mem_int32Text, ← minus_mem_int32Text, h]
  have habs : i.toInt.natAbs = j.toInt.natAbs := by
    refine FreshName.natText_injective ?_
    unfold int32Text at h
    by_cases hneg : i < 0
    · rw [if_pos hneg, if_pos (hsign.mp hneg)] at h
      exact (List.cons.inj h).2
    · rwa [if_neg hneg, if_neg (hsign.not.mp hneg)] at h
  rw [Int32.lt_iff_toInt_lt, Int32.lt_iff_toInt_lt] at hsign
  rw [← Int32.toInt_inj]
  simp only [Int32.toInt_zero] at hsign
  omega

end Number

/-- The set of texture coordinates that a node reads, if it reads texture coordinates. -/
def ShaderNode.texcoord? (n : ShaderNode) : Option Int32 :=
  match n.code? with
  | some (.geometry .texcoord) => some n.texcoordIndex
  | _ => none

/-- The vertex attribute that holds a set of texture coordinates. -/
def VertexAttribute.texcoord (index : Int32) : String :=
  texcoordStem ++ String.ofList (Number.int32Text index)

/-- The varying that holds a set of texture coordinates. -/
def Varying.texcoord (index : Int32) : String :=
  "texcoord_" ++ String.ofList (Number.int32Text index)

variable {n : ShaderNode} {need : GeometryNeeds} {index index' : Int32}

theorem ofList_int32Text_inj (h : String.ofList (Number.int32Text index) =
    String.ofList (Number.int32Text index')) : index = index' := by
  have hlist := congrArg String.toList h
  rw [String.toList_ofList, String.toList_ofList] at hlist
  exact Number.int32Text_injective hlist

theorem VertexAttribute.texcoord_inj :
    VertexAttribute.texcoord index = VertexAttribute.texcoord index' ↔ index = index' :=
  ⟨fun h => ofList_int32Text_inj ((String.append_right_inj _).mp h), fun h => h ▸ rfl⟩

theorem Varying.texcoord_inj : Varying.texcoord index = Varying.texcoord index' ↔ index = index' :=
  ⟨fun h => ofList_int32Text_inj ((String.append_right_inj _).mp h), fun h => h ▸ rfl⟩

/-- The attribute for a set has an identifier as its name unless the set has a negative number. -/
theorem VertexAttribute.isIdentifier_texcoord :
    Glsl.IsIdentifier (VertexAttribute.texcoord index) ↔ ¬ index < 0 := by
  have htext : (String.ofList (Number.int32Text index)).toList = Number.int32Text index :=
    String.toList_ofList
  constructor
  · intro h hneg
    have hminus : '-' ∈ (VertexAttribute.texcoord index).toList := by
      rw [texcoord, String.toList_append, htext]
      exact List.mem_append_right _ (Number.minus_mem_int32Text.mpr hneg)
    exact absurd (h.chars _ hminus) (by decide)
  · intro hneg
    have hstem : Glsl.IsIdentifier VertexAttribute.texcoordStem := by decide
    refine hstem.append_digits fun c hc => ?_
    rw [htext, Number.int32Text, if_neg hneg] at hc
    exact Number.isDigit_of_mem_natText hc

/-! ## What a node needs -/

/-- A node reads a set of texture coordinates or a property of the surface. -/
theorem ShaderNode.geometryNeeds?_cases (h : n.geometryNeeds? = some need) :
    (∃ index, n.texcoord? = some index ∧
      need = {
        attributes := [{ name := VertexAttribute.texcoord index, type := n.type }]
        varying := { name := Varying.texcoord index, type := n.type }
        value := VertexAttribute.texcoord index
        read := .declare ((Glsl.typeName? n.type).getD "vec2") n.outputVariable
          (some (.ofText (Varying.block ++ "." ++ Varying.texcoord index))) }) ∨
    (n.texcoord? = none ∧ ∃ property, need = GeometryReader.surfaceNeeds n property) := by
  unfold ShaderNode.geometryNeeds? at h
  unfold ShaderNode.texcoord?
  split at h
  · rename_i reader hcode
    obtain rfl := Option.some.inj h
    cases reader with
    | texcoord =>
      rw [hcode]
      exact .inl ⟨n.texcoordIndex, rfl, rfl⟩
    | surface property =>
      rw [hcode]
      exact .inr ⟨rfl, property, rfl⟩
  · cases h

theorem ShaderNode.texcoord?_needs (h : n.texcoord? = some index) :
    ∃ need, n.geometryNeeds? = some need := by
  unfold ShaderNode.texcoord? at h
  unfold ShaderNode.geometryNeeds?
  split at h
  · rename_i hcode
    rw [hcode]
    exact ⟨_, rfl⟩
  · cases h

/-- The attributes that nodes need besides texture coordinates. -/
def VertexAttribute.vectors : List String :=
  [VertexAttribute.position, VertexAttribute.normal, VertexAttribute.tangent]

theorem VertexAttribute.position_mem_vectors : position ∈ vectors := List.mem_cons_self

theorem VertexAttribute.normal_mem_vectors : normal ∈ vectors :=
  List.mem_cons_of_mem _ List.mem_cons_self

theorem VertexAttribute.tangent_mem_vectors : tangent ∈ vectors :=
  List.mem_cons_of_mem _ (List.mem_cons_of_mem _ List.mem_cons_self)

/-- The varyings that nodes need besides texture coordinates. -/
def Varying.vectors : List String := [Varying.positionWorld, "normalWorld", "tangentWorld"]

theorem VertexAttribute.ne_texcoord {name : String} (h : name ∈ vectors) (index : Int32) :
    name ≠ texcoord index := by
  rintro rfl
  have hvectors : ∀ name ∈ vectors, ¬ texcoordStem.toList <+: name.toList := by decide
  refine hvectors _ h ?_
  rw [texcoord, String.toList_append]
  exact List.prefix_append _ _

theorem Varying.ne_texcoord {name : String} (h : name ∈ vectors) (index : Int32) :
    name ≠ texcoord index := by
  rintro rfl
  have hvectors : ∀ name ∈ vectors, ¬ "texcoord_".toList <+: name.toList := by decide
  refine hvectors _ h ?_
  rw [texcoord, String.toList_append]
  exact List.prefix_append _ _

/-- What a property of the surface needs are vectors with three components. -/
theorem surfaceNeeds_vectors (n : ShaderNode) (property : SurfaceProperty) :
    (∀ v ∈ (GeometryReader.surfaceNeeds n property).attributes,
      v.name ∈ VertexAttribute.vectors ∧ v.type = .tuple .vector3) ∧
    (GeometryReader.surfaceNeeds n property).varying.name ∈ Varying.vectors ∧
    (GeometryReader.surfaceNeeds n property).varying.type = .tuple .vector3 := by
  cases property with
  | position =>
    refine ⟨fun v hv => ?_, List.mem_cons_self, rfl⟩
    cases hv
  | normal =>
    refine ⟨fun v hv => ?_, List.mem_cons_of_mem _ List.mem_cons_self, rfl⟩
    rw [List.mem_singleton.mp hv]
    exact ⟨VertexAttribute.normal_mem_vectors, rfl⟩
  | tangent =>
    refine ⟨fun v hv => ?_, ?_, rfl⟩
    · rw [List.mem_singleton.mp hv]
      exact ⟨VertexAttribute.tangent_mem_vectors, rfl⟩
    · exact List.mem_cons_of_mem _ (List.mem_cons_of_mem _ List.mem_cons_self)

/-- The first node that reads a set of texture coordinates. -/
def firstReader? (nodes : List ShaderNode) (index : Int32) : Option ShaderNode :=
  nodes.find? (·.texcoord? = some index)

/-- If the nodes that read a set of texture coordinates are those that register a variable of a
name, with their own type, then the first variable of this name has the type of the first node. -/
theorem find?_flatMap_needs {register : GeometryNeeds → List ShaderVariable} {name : String}
    (hregister : ∀ (n : ShaderNode) need, n.geometryNeeds? = some need →
      (register need).find? (·.name = name) =
        if n.texcoord? = some index then some { name, type := n.type } else none)
    (nodes : List ShaderNode) :
    ((nodes.filterMap (·.geometryNeeds?)).flatMap register).find? (·.name = name) =
      (firstReader? nodes index).map fun m => { name, type := m.type } := by
  unfold firstReader?
  induction nodes with
  | nil => rfl
  | cons n rest ih =>
    cases hneeds : n.geometryNeeds? with
    | none =>
      have hother : n.texcoord? ≠ some index := by
        intro h
        obtain ⟨need, hneed⟩ := ShaderNode.texcoord?_needs h
        rw [hneeds] at hneed
        cases hneed
      rw [List.filterMap_cons_none hneeds, ih, List.find?_cons_of_neg (by simpa using hother)]
    | some need =>
      rw [List.filterMap_cons_some hneeds, List.flatMap_cons, List.find?_append,
        hregister n need hneeds, ih]
      by_cases hreads : n.texcoord? = some index
      · rw [if_pos hreads, List.find?_cons_of_pos (by simpa using hreads), Option.some_or,
          Option.map_some]
      · rw [if_neg hreads, List.find?_cons_of_neg (by simpa using hreads), Option.none_or]

/-! ## The assignments of the vertex stage -/

/-- The assignment of a value to a varying. -/
def assignment (assigned : String × String) : String :=
  s!"{Varying.block}.{assigned.1} = {assigned.2};"

/-- A buffer holds one assignment for each of the varyings of a block, in their order. -/
structure Assigns (b : CodeBuffer) (block : VariableBlock) (assigned : List (String × String)) :
    Prop where
  depth : b.depth = 1
  code : b.code = CodeBuffer.linesText 1 (assigned.map assignment)
  names : assigned.map (·.1) = block.names
  calculated : ∀ name, name ∈ b.calculated ↔ name ∈ block.names

section Assigns

variable {b : CodeBuffer} {block : VariableBlock} {assigned : List (String × String)}

theorem litBody_assigns (isLit : Bool) :
    Assigns (litBody isLit)
      ⟨if isLit then [{ name := Varying.positionWorld, type := .tuple .vector3 }] else []⟩
      (if isLit then [(Varying.positionWorld, "hPositionWorld.xyz")] else []) := by
  cases isLit with
  | false => exact ⟨rfl, rfl, rfl, fun _ => Iff.rfl⟩
  | true => exact ⟨rfl, by decide +kernel, rfl, fun _ => Iff.rfl⟩

/-- A varying is assigned when it is registered, unless it is already there. -/
theorem Assigns.assignVarying (h : Assigns b block assigned) (v : ShaderVariable) (value : String) :
    ∃ assigned', Assigns (b.assignVarying v.name value) (block.add v) assigned' ∧
      ∀ a ∈ assigned', a ∈ assigned ∨ a = (v.name, value) := by
  by_cases hin : v.name ∈ block.names
  · have hcontains : block.contains v.name = true := VariableBlock.mem_names_iff.mp hin
    have hcalculated : b.isCalculated v.name = true := by
      simpa [CodeBuffer.isCalculated] using (h.calculated v.name).mpr hin
    refine ⟨assigned, ?_, fun a ha => .inl ha⟩
    rwa [CodeBuffer.assignVarying, if_pos hcalculated, VariableBlock.add, if_pos hcontains]
  · have hcontains : ¬ block.contains v.name = true :=
      fun h => hin (VariableBlock.mem_names_iff.mpr h)
    have hnew : v.name ∉ b.calculated := fun hmem => hin ((h.calculated v.name).mp hmem)
    have hcalculated : ¬ b.isCalculated v.name = true := by
      simpa [CodeBuffer.isCalculated] using hnew
    rw [CodeBuffer.assignVarying, if_neg hcalculated, VariableBlock.add, if_neg hcontains]
    refine ⟨assigned ++ [(v.name, value)], ⟨h.depth, ?_, ?_, fun name => ?_⟩, fun a ha => ?_⟩
    · show (b.line _).code = _
      rw [CodeBuffer.line_code, h.depth, h.code, List.map_append, List.map_singleton,
        CodeBuffer.linesText_append]
      rfl
    · rw [List.map_append, h.names, VariableBlock.names, VariableBlock.names, List.map_append]
      rfl
    · show name ∈ b.calculated.insert v.name ↔ name ∈ (block.entries ++ [v]).map (·.name)
      rw [List.mem_insert_iff, List.map_append, List.mem_append, h.calculated, or_comm]
      exact or_congr Iff.rfl List.mem_singleton.symm
    · rcases List.mem_append.mp ha with ha | ha
      · exact .inl ha
      · exact .inr (List.mem_singleton.mp ha)

/-- The varyings that nodes need are assigned the values that the nodes give. -/
theorem Assigns.assignAll (h : Assigns b block assigned) (needs : List GeometryNeeds) :
    ∃ assigned', Assigns
        (needs.foldl (fun b need => b.assignVarying need.varying.name need.value) b)
        (block.addAll (needs.map (·.varying))) assigned' ∧
      ∀ a ∈ assigned', a ∈ assigned ∨ ∃ need ∈ needs, a = (need.varying.name, need.value) := by
  induction needs generalizing b block assigned with
  | nil => exact ⟨assigned, h, fun a ha => .inl ha⟩
  | cons need rest ih =>
    obtain ⟨assigned₁, h₁, hfirst⟩ := h.assignVarying need.varying need.value
    obtain ⟨assigned₂, h₂, hrest⟩ := ih h₁
    refine ⟨assigned₂, h₂, fun a ha => ?_⟩
    rcases hrest a ha with ha | ⟨other, hother, heq⟩
    · rcases hfirst a ha with ha | heq
      · exact .inl ha
      · exact .inr ⟨need, List.mem_cons_self, heq⟩
    · exact .inr ⟨other, List.mem_cons_of_mem _ hother, heq⟩

end Assigns

/-! ## The blocks of variables -/

theorem ShaderParts.mem_declaredIn {block : VariableBlock} {name : String} :
    name ∈ declaredIn block ↔ ∃ v ∈ block.entries, v.declaration?.isSome ∧ v.name = name := by
  simp only [declaredIn, List.mem_map, List.mem_filter, and_assoc]

theorem ShaderParts.mem_declaredIn_of_names {block : VariableBlock} {name : String}
    (hname : name ∈ block.names)
    (hdeclared : ∀ v ∈ block.entries, v.name = name → v.declaration?.isSome) :
    name ∈ declaredIn block := by
  obtain ⟨v, hv, hsame⟩ := List.mem_map.mp hname
  exact mem_declaredIn.mpr ⟨v, hv, hdeclared v hv hsame, hsame⟩

/-- In a block of different names a name is declared if shaders know the type of its variable. -/
theorem ShaderParts.mem_declaredIn_iff_get? {block : VariableBlock} {name : String}
    (h : block.names.Nodup) : name ∈ declaredIn block ↔
      ∃ v, block.get? name = some v ∧ Glsl.isShaderType v.type = true := by
  rw [mem_declaredIn]
  constructor
  · rintro ⟨v, hv, hdeclared, rfl⟩
    exact ⟨v, VariableBlock.get?_of_mem h hv, v.declaration?_isSome.symm.trans hdeclared⟩
  · rintro ⟨v, hget, htype⟩
    have hname : v.name = name := by simpa using List.find?_some hget
    exact ⟨v, List.mem_of_find?_eq_some hget, v.declaration?_isSome.trans htype, hname⟩

section Blocks

variable {p : ShaderParts} {options : GeneratorOptions} {g : ShaderGraph} {nodes : List ShaderNode}
  {isLit : Bool} {v : ShaderVariable}

namespace ShaderParts.MadeFor

theorem varyings_nodup (h : p.MadeFor options g nodes isLit) : p.varyings.names.Nodup := by
  rw [h.varyings]
  refine VariableBlock.nodup_names_addAll ?_ _
  cases isLit <;> decide

theorem vertexInputs_nodup (h : p.MadeFor options g nodes isLit) : p.vertexInputs.names.Nodup := by
  rw [h.vertexInputs]
  exact VariableBlock.nodup_names_addAll (by decide) _

/-- The varying for a set of texture coordinates has the type of the first node that reads it. -/
theorem get?_varyings (h : p.MadeFor options g nodes isLit) (index : Int32) :
    p.varyings.get? (Varying.texcoord index) = (firstReader? nodes index).map fun m =>
      { name := Varying.texcoord index, type := m.type } := by
  have hlit : (⟨if isLit then [{ name := Varying.positionWorld, type := .tuple .vector3 }]
      else []⟩ : VariableBlock).get? (Varying.texcoord index) = none := by
    have hother : Varying.positionWorld ≠ Varying.texcoord index :=
      Varying.ne_texcoord List.mem_cons_self index
    cases isLit with
    | false => rfl
    | true => simp [VariableBlock.get?, hother]
  rw [h.varyings, VariableBlock.get?_addAll, hlit, Option.none_or, List.map_eq_flatMap]
  refine find?_flatMap_needs (fun n need hneed => ?_) nodes
  rcases ShaderNode.geometryNeeds?_cases hneed with ⟨index', hreads, rfl⟩ | ⟨hreads, property, rfl⟩
  · simp only [List.find?_singleton, hreads, Option.some.injEq, Varying.texcoord_inj,
      decide_eq_true_eq]
    split
    · rename_i heq
      rw [heq]
    · rfl
  · have hother := Varying.ne_texcoord (surfaceNeeds_vectors n property).2.1 index
    simp [hreads, hother]

/-- The attribute for a set of texture coordinates has the type of the first node that reads it. -/
theorem get?_vertexInputs (h : p.MadeFor options g nodes isLit) (index : Int32) :
    p.vertexInputs.get? (VertexAttribute.texcoord index) = (firstReader? nodes index).map fun m =>
      { name := VertexAttribute.texcoord index, type := m.type } := by
  have hposition : (⟨[{ name := VertexAttribute.position, type := .tuple .vector3 }]⟩ :
      VariableBlock).get? (VertexAttribute.texcoord index) = none := by
    have hother : VertexAttribute.position ≠ VertexAttribute.texcoord index :=
      VertexAttribute.ne_texcoord List.mem_cons_self index
    simp [VariableBlock.get?, hother]
  rw [h.vertexInputs, VariableBlock.get?_addAll, hposition, Option.none_or]
  refine find?_flatMap_needs (fun n need hneed => ?_) nodes
  rcases ShaderNode.geometryNeeds?_cases hneed with ⟨index', hreads, rfl⟩ | ⟨hreads, property, rfl⟩
  · simp only [List.find?_singleton, hreads, Option.some.injEq, VertexAttribute.texcoord_inj,
      decide_eq_true_eq]
    split
    · rename_i heq
      rw [heq]
    · rfl
  · rw [if_neg (by simp [hreads]), List.find?_eq_none]
    intro v hv heq
    have hvector := ((surfaceNeeds_vectors n property).1 v hv).1
    exact VertexAttribute.ne_texcoord hvector index (of_decide_eq_true heq)

/-- An attribute is a vector or holds a set of texture coordinates that a node reads. -/
theorem mem_vertexInputs (h : p.MadeFor options g nodes isLit) (hv : v ∈ p.vertexInputs.entries) :
    (v.name ∈ VertexAttribute.vectors ∧ v.type = .tuple .vector3) ∨
      ∃ n ∈ nodes, ∃ index, n.texcoord? = some index ∧ v.name = VertexAttribute.texcoord index := by
  rw [h.vertexInputs] at hv
  rcases VariableBlock.mem_of_mem_addAll hv with hv | hv
  · rw [List.mem_singleton.mp hv]
    exact .inl ⟨List.mem_cons_self, rfl⟩
  · obtain ⟨need, hneed, hv⟩ := List.mem_flatMap.mp hv
    obtain ⟨n, hn, hneed⟩ := List.mem_filterMap.mp hneed
    rcases ShaderNode.geometryNeeds?_cases hneed with ⟨index, hreads, rfl⟩ | ⟨-, property, rfl⟩
    · exact .inr ⟨n, hn, index, hreads, by rw [List.mem_singleton.mp hv]⟩
    · exact .inl ((surfaceNeeds_vectors n property).1 v hv)

/-- A varying is a vector or holds a set of texture coordinates that a node reads. -/
theorem mem_varyings (h : p.MadeFor options g nodes isLit) (hv : v ∈ p.varyings.entries) :
    (v.name ∈ Varying.vectors ∧ v.type = .tuple .vector3) ∨
      ∃ n ∈ nodes, ∃ index, n.texcoord? = some index ∧ v.name = Varying.texcoord index := by
  rw [h.varyings] at hv
  rcases VariableBlock.mem_of_mem_addAll hv with hv | hv
  · cases isLit with
    | false => cases hv
    | true =>
      rw [List.mem_singleton.mp hv]
      exact .inl ⟨List.mem_cons_self, rfl⟩
  · obtain ⟨need, hneed, rfl⟩ := List.mem_map.mp hv
    obtain ⟨n, hn, hneed⟩ := List.mem_filterMap.mp hneed
    rcases ShaderNode.geometryNeeds?_cases hneed with ⟨index, hreads, rfl⟩ | ⟨-, property, rfl⟩
    · exact .inr ⟨n, hn, index, hreads, rfl⟩
    · exact .inl (surfaceNeeds_vectors n property).2

theorem mem_vertexUniforms (h : p.MadeFor options g nodes isLit)
    (hv : v ∈ p.vertexUniforms.entries) : v.type = .tuple .matrix44 := by
  rw [h.vertexUniforms] at hv
  rcases VariableBlock.mem_of_mem_addAll hv with hv | hv
  · rcases List.mem_cons.mp hv with rfl | hv
    · rfl
    · rw [List.mem_singleton.mp hv]
  · obtain ⟨need, hneed, hv⟩ := List.mem_flatMap.mp hv
    obtain ⟨n, hn, hneed⟩ := List.mem_filterMap.mp hneed
    rcases ShaderNode.geometryNeeds?_cases hneed with ⟨index, -, rfl⟩ | ⟨-, property, rfl⟩
    · cases hv
    · cases property with
      | position => cases hv
      | normal => rw [List.mem_singleton.mp hv]
      | tangent => cases hv

/-! ### What is declared -/

/-- Vectors are declared in the vertex stage if they are registered. -/
theorem declared_vector (h : p.MadeFor options g nodes isLit) {name : String}
    (hvector : name ∈ VertexAttribute.vectors) (hname : name ∈ p.vertexInputs.names) :
    name ∈ declaredIn p.vertexInputs := by
  refine mem_declaredIn_of_names hname fun v hv hsame => ?_
  rcases h.mem_vertexInputs hv with ⟨-, htype⟩ | ⟨n, -, index, -, heq⟩
  · rw [ShaderVariable.declaration?_isSome, htype]
    rfl
  · exact absurd (hsame.symm.trans heq) (VertexAttribute.ne_texcoord hvector index)

theorem declared_uniform (h : p.MadeFor options g nodes isLit) {name : String}
    (hname : name ∈ p.vertexUniforms.names) : name ∈ declaredIn p.vertexUniforms := by
  refine mem_declaredIn_of_names hname fun v hv _ => ?_
  rw [ShaderVariable.declaration?_isSome, h.mem_vertexUniforms hv]
  rfl

/-- The attribute for a set of texture coordinates is declared exactly if the varying is. -/
theorem declared_texcoord_iff (h : p.MadeFor options g nodes isLit) {index : Int32} :
    VertexAttribute.texcoord index ∈ declaredIn p.vertexInputs ↔
      Varying.texcoord index ∈ declaredIn p.varyings := by
  rw [mem_declaredIn_iff_get? h.vertexInputs_nodup, mem_declaredIn_iff_get? h.varyings_nodup,
    h.get?_vertexInputs, h.get?_varyings]
  cases firstReader? nodes index with
  | none => simp only [Option.map_none, reduceCtorEq, false_and, exists_false]
  | some m => simp only [Option.map_some, Option.some.injEq, exists_eq_left']

theorem attribute_mem (h : p.MadeFor options g nodes isLit) {n : ShaderNode} {need : GeometryNeeds}
    (hn : n ∈ nodes) (hneed : n.geometryNeeds? = some need) (hv : v ∈ need.attributes) :
    v.name ∈ p.vertexInputs.names := by
  rw [h.vertexInputs, VariableBlock.mem_names_addAll]
  exact .inr ⟨v, List.mem_flatMap.mpr ⟨need, List.mem_filterMap.mpr ⟨n, hn, hneed⟩, hv⟩, rfl⟩

theorem uniform_mem (h : p.MadeFor options g nodes isLit) {n : ShaderNode} {need : GeometryNeeds}
    (hn : n ∈ nodes) (hneed : n.geometryNeeds? = some need) (hv : v ∈ need.uniforms) :
    v.name ∈ p.vertexUniforms.names := by
  rw [h.vertexUniforms, VariableBlock.mem_names_addAll]
  exact .inr ⟨v, List.mem_flatMap.mpr ⟨need, List.mem_filterMap.mpr ⟨n, hn, hneed⟩, hv⟩, rfl⟩

theorem varying_mem (h : p.MadeFor options g nodes isLit) {n : ShaderNode} {need : GeometryNeeds}
    (hn : n ∈ nodes) (hneed : n.geometryNeeds? = some need) :
    need.varying.name ∈ p.varyings.names := by
  rw [h.varyings, VariableBlock.mem_names_addAll]
  exact .inr ⟨need.varying, List.mem_map_of_mem (List.mem_filterMap.mpr ⟨n, hn, hneed⟩), rfl⟩

theorem position_mem (h : p.MadeFor options g nodes isLit) :
    VertexAttribute.position ∈ p.vertexInputs.names := by
  rw [h.vertexInputs, VariableBlock.mem_names_addAll]
  exact .inl (List.mem_singleton_self _)

theorem worldMatrix_mem (h : p.MadeFor options g nodes isLit) :
    Uniforms.worldMatrix ∈ p.vertexUniforms.names := by
  rw [h.vertexUniforms, VariableBlock.mem_names_addAll]
  exact .inl List.mem_cons_self

end ShaderParts.MadeFor

/-! ## Both stages -/

/-- The expressions that the vertex stage makes of attributes and uniforms: an attribute as it is,
the position in world space, and the direction in world space of an attribute. -/
inductive VertexExpression (attributes uniforms : List String) : String → Prop
  | attribute {name : String} (h : name ∈ attributes) : VertexExpression attributes uniforms name
  | position (hmatrix : Uniforms.worldMatrix ∈ uniforms)
      (hposition : VertexAttribute.position ∈ attributes) :
      VertexExpression attributes uniforms "hPositionWorld.xyz"
  | direction {matrix attr : String} (hmatrix : matrix ∈ uniforms) (hattr : attr ∈ attributes) :
      VertexExpression attributes uniforms (worldDirection matrix attr)

namespace ShaderParts

open CodeBuffer

/-- What both stages share. The sources have the same block of varyings, the vertex stage assigns
the varyings one by one, those that are declared are made of what it declares, and the pixel stage
has the statements that read the varyings. -/
structure StagesShare (p : ShaderParts) (nodes : List ShaderNode)
    (assigned : List (String × String)) : Prop where
  vertexSource : p.vertexSource = linesText 0 [versionDirective] ++ "\n" ++
    uniformsText 0 "PrivateUniforms" p.vertexUniforms (·.declaration?) ++
    inputsText p.vertexInputs ++ varyingsText 0 "out" p.varyings ++ vertexMain ++
    linesText 1 (assigned.map assignment) ++ "\x7d\n"
  pixelSource : p.pixelSource = p.pixelHead ++
    uniformsText 0 "PrivateUniforms" p.pixelUniforms (·.declaration?) ++
    uniformsText 0 "PublicUniforms" p.publicUniforms (·.initializedDeclaration?) ++
    p.lightsText ++ varyingsText 0 "in" p.varyings ++ outputText ++ p.functions.code.code ++
    mainText p.pixelBody
  names : assigned.map (·.1) = p.varyings.names
  nodup : p.varyings.names.Nodup
  values : ∀ a ∈ assigned, a.1 ∈ declaredIn p.varyings →
    VertexExpression (declaredIn p.vertexInputs) (declaredIn p.vertexUniforms) a.2
  read : ∀ n ∈ nodes, ∀ need, n.geometryNeeds? = some need → need.read ∈ p.pixelBody

/-- The value that a node gives to a varying that is declared is made of what is declared. -/
theorem MadeFor.value (h : p.MadeFor options g nodes isLit) {n : ShaderNode} {need : GeometryNeeds}
    (hn : n ∈ nodes) (hneed : n.geometryNeeds? = some need)
    (hdeclared : need.varying.name ∈ declaredIn p.varyings) :
    VertexExpression (declaredIn p.vertexInputs) (declaredIn p.vertexUniforms) need.value := by
  have hmatrix := h.declared_uniform h.worldMatrix_mem
  rcases ShaderNode.geometryNeeds?_cases hneed with ⟨index, -, rfl⟩ | ⟨-, property, rfl⟩
  · exact .attribute (h.declared_texcoord_iff.mpr hdeclared)
  · cases property with
    | position =>
      exact .position hmatrix
        (h.declared_vector VertexAttribute.position_mem_vectors h.position_mem)
    | normal =>
      exact .direction (h.declared_uniform (h.uniform_mem hn hneed List.mem_cons_self))
        (h.declared_vector VertexAttribute.normal_mem_vectors
          (h.attribute_mem hn hneed List.mem_cons_self))
    | tangent =>
      exact .direction hmatrix (h.declared_vector VertexAttribute.tangent_mem_vectors
        (h.attribute_mem hn hneed List.mem_cons_self))

theorem MadeFor.stagesShare (h : p.MadeFor options g nodes isLit)
    (hread : ∀ n ∈ nodes, ∀ need, n.geometryNeeds? = some need → need.read ∈ p.pixelBody) :
    ∃ assigned, p.StagesShare nodes assigned := by
  obtain ⟨assigned, hassigned, hfrom⟩ :=
    (litBody_assigns isLit).assignAll (nodes.filterMap (·.geometryNeeds?))
  rw [← h.varyings, ← h.vertexBody] at hassigned
  refine ⟨assigned, ?_, pixelSource_eq p, hassigned.names, h.varyings_nodup,
    fun a ha hdeclared => ?_, hread⟩
  · rw [vertexSource_eq, hassigned.code]
  · rcases hfrom a ha with hlit | ⟨need, hneed, rfl⟩
    · have hposition : a.2 = "hPositionWorld.xyz" := by
        cases isLit with
        | false => cases hlit
        | true => rw [List.mem_singleton.mp hlit]
      rw [hposition]
      exact .position (h.declared_uniform h.worldMatrix_mem)
        (h.declared_vector VertexAttribute.position_mem_vectors h.position_mem)
    · obtain ⟨n, hn, hneed⟩ := List.mem_filterMap.mp hneed
      exact h.value hn hneed hdeclared

end ShaderParts

/-! ## Where the stages fit -/

/-- A statement declares a variable of a type and sets it to a varying or to its direction. -/
def Statement.Reads (s : Statement) (type varying : String) : Prop :=
  ∃ output, s = .declare type output (some (.ofText (Varying.block ++ "." ++ varying))) ∨
    s = .declare type output
      (some (.ofText ("normalize(" ++ (Varying.block ++ "." ++ varying) ++ ")")))

/-- What the pixel stage reads are declared varyings of the types that it takes them for, and the
attributes of the vertex stage are declared under identifiers. -/
structure ShaderParts.StagesFit (p : ShaderParts) (nodes : List ShaderNode) : Prop where
  reads : ∀ n ∈ nodes, ∀ need, n.geometryNeeds? = some need → ∃ v ∈ p.varyings.entries,
    ∃ type, Glsl.typeName? v.type = some type ∧ need.read.Reads type v.name
  inputs : ∀ v ∈ p.vertexInputs.entries, v.declaration?.isSome ∧ Glsl.IsIdentifier v.name

/-- No set of texture coordinates has a negative number, and the first node that reads a set has the
type for which all others take it, with two components for those whose types shaders do not know. -/
def TexcoordsFit (nodes : List ShaderNode) : Prop :=
  ∀ n ∈ nodes, ∀ index, n.texcoord? = some index → ¬ index < 0 ∧
    ∃ m, firstReader? nodes index = some m ∧
      Glsl.typeName? m.type = some ((Glsl.typeName? n.type).getD "vec2")

/-- A statement that reads the varying for a set of texture coordinates reads no other one. -/
theorem reads_texcoord {type type' varying varying' output : String}
    (h : (Statement.declare type' output
      (some (.ofText (Varying.block ++ "." ++ varying')))).Reads type varying) :
    type' = type ∧ varying' = varying := by
  obtain ⟨output', hread | hread⟩ := h
  · simp only [Statement.declare.injEq, Option.some.injEq, Expression.ofText, List.cons.injEq,
      Fragment.text.injEq, String.append_right_inj] at hread
    exact ⟨hread.1, hread.2.2.1⟩
  · simp only [Statement.declare.injEq, Option.some.injEq, Expression.ofText, List.cons.injEq,
      Fragment.text.injEq] at hread
    have hlist := congrArg (fun text => text.toList.head?) hread.2.2.1
    simp [String.toList_append, Varying.block] at hlist

theorem ShaderParts.StagesFit.texcoordsFit (h : p.StagesFit nodes)
    (hmade : p.MadeFor options g nodes isLit) : TexcoordsFit nodes := by
  intro n hn index hreads
  obtain ⟨need, hneed⟩ := ShaderNode.texcoord?_needs hreads
  obtain ⟨v, hv, type, htype, hread⟩ := h.reads n hn need hneed
  rcases ShaderNode.geometryNeeds?_cases hneed with ⟨index', hreads', rfl⟩ | ⟨hnone, -⟩
  · obtain rfl : index' = index := Option.some.inj (hreads'.symm.trans hreads)
    constructor
    · have hattribute := hmade.attribute_mem hn hneed List.mem_cons_self
      obtain ⟨w, hw, hname⟩ := List.mem_map.mp hattribute
      have hidentifier := (h.inputs w hw).2
      rw [hname] at hidentifier
      exact VertexAttribute.isIdentifier_texcoord.mp hidentifier
    · obtain ⟨rfl, hname⟩ := reads_texcoord hread
      have hget := VariableBlock.get?_of_mem hmade.varyings_nodup hv
      rw [← hname, hmade.get?_varyings] at hget
      obtain ⟨m, hm, rfl⟩ := Option.map_eq_some_iff.mp hget
      exact ⟨m, hm, htype⟩
  · rw [hreads] at hnone
    cases hnone

theorem TexcoordsFit.stagesFit (h : TexcoordsFit nodes)
    (hmade : p.MadeFor options g nodes isLit) : p.StagesFit nodes := by
  have hvectors : ∀ name ∈ VertexAttribute.vectors, Glsl.IsIdentifier name := by decide
  constructor
  · intro n hn need hneed
    have hmem := hmade.varying_mem hn hneed
    rcases ShaderNode.geometryNeeds?_cases hneed with ⟨index, hreads, rfl⟩ | ⟨-, property, rfl⟩
    · obtain ⟨-, m, hm, htype⟩ := h n hn index hreads
      have hget := hmade.get?_varyings index
      rw [hm, Option.map_some] at hget
      exact ⟨_, List.mem_of_find?_eq_some hget, _, htype, _, .inl rfl⟩
    · obtain ⟨v, hv, hname⟩ := List.mem_map.mp hmem
      rcases hmade.mem_varyings hv with ⟨-, htype⟩ | ⟨m, -, index, -, heq⟩
      · refine ⟨v, hv, "vec3", by rw [htype]; rfl, ?_⟩
        rw [hname]
        cases property with
        | position => exact ⟨_, .inl rfl⟩
        | normal => exact ⟨_, .inr rfl⟩
        | tangent => exact ⟨_, .inr rfl⟩
      · have hvector := (surfaceNeeds_vectors n property).2.1
        exact absurd (hname.symm.trans heq) (Varying.ne_texcoord hvector index)
  · intro v hv
    rw [ShaderVariable.declaration?_isSome]
    rcases hmade.mem_vertexInputs hv with ⟨hname, htype⟩ | ⟨n, hn, index, hreads, hname⟩
    · exact ⟨by rw [htype]; rfl, hvectors _ hname⟩
    · obtain ⟨hindex, m, hm, htype⟩ := h n hn index hreads
      have hget := VariableBlock.get?_of_mem hmade.vertexInputs_nodup hv
      rw [hname, hmade.get?_vertexInputs, hm] at hget
      obtain rfl := Option.some.inj hget
      have hknown : Glsl.isShaderType m.type = true := by rw [Glsl.isShaderType, htype]; rfl
      exact ⟨hknown, VertexAttribute.isIdentifier_texcoord.mpr hindex⟩

end Blocks

/-! ## The generated shader -/

namespace MainBody

variable {g : ShaderGraph} {transparency : Bool} {body : List Statement}

/-- The nodes that the root reaches, in the order of the main function. -/
def nodes (main : MainBody g transparency body) : List ShaderNode :=
  main.order.filterMap (g.nodes[·]?)

theorem mem_nodes (main : MainBody g transparency body) {n : ShaderNode} :
    n ∈ main.nodes ↔ ∃ i, g.Reaches i ∧ g.nodes[i]? = some n := by
  rw [nodes, List.mem_filterMap]
  exact exists_congr fun i => and_congr_left' (main.sorted.mem_iff i)

/-- The statement that reads the geometry for a node is in the main function. -/
theorem read_mem (main : MainBody g transparency body) {n : ShaderNode} {need : GeometryNeeds}
    (hn : n ∈ main.nodes) (hneed : n.geometryNeeds? = some need) : need.read ∈ body := by
  obtain ⟨i, hi, hnode⟩ := List.mem_filterMap.mp hn
  obtain ⟨m, hm, hown⟩ := main.own i hi
  obtain rfl : m = n := Option.some.inj (hm.symm.trans hnode)
  have hstatements : g.statementsOf m = .ok [need.read] := by
    unfold ShaderNode.geometryNeeds? at hneed
    unfold ShaderGraph.statementsOf
    split at hneed
    · rename_i reader hcode
      obtain rfl := Option.some.inj hneed
      rw [hcode]
    · cases hneed
  rw [main.body_eq]
  refine List.mem_append_left _ (List.mem_flatMap.mpr ⟨i, hi, ?_⟩)
  rw [← Except.ok.inj (hstatements.symm.trans hown)]
  exact List.mem_singleton_self _

end MainBody

/-- Both stages of a generated shader share the block of varyings, which the vertex stage assigns.
The pixel stage takes varyings for the types that they have, and all attributes are declared, if and
only if the nodes that read texture coordinates fit together. -/
theorem generate_stagesFit_iff {gen : ShaderGenerator} {d : Document} {files : FileTree}
    {path : String} {options : GeneratorOptions} {shader : GeneratedShader}
    (h : gen.generate d files path options = .ok shader) :
    ∃ (g : ShaderGraph) (parts : ShaderParts),
      Graph.build ⟨d, options, gen.registry⟩ path = .ok g ∧
      ∃ main : MainBody g options.transparency parts.pixelBody,
        gen.parts d files options g main.nodes main.final
          (main.root.type = .closure .surfaceShader) = .ok parts ∧
        shader.vertexSource = parts.vertexSource ∧ shader.pixelSource = parts.pixelSource ∧
        shader.vertexInputs = parts.vertexInputs ∧
        (∃ assigned, parts.StagesShare main.nodes assigned) ∧
        (parts.StagesFit main.nodes ↔ TexcoordsFit main.nodes) := by
  obtain ⟨g, parts, hbuild, main, hparts, rfl⟩ := generate_main h
  have hmade := parts_madeFor hparts
  exact ⟨g, parts, hbuild, main, hparts, rfl, rfl, rfl,
    hmade.stagesShare fun n hn need hneed => main.read_mem hn hneed,
    fun hfit => hfit.texcoordsFit hmade, fun hfit => hfit.stagesFit hmade⟩

namespace Graph.Sample

/-- The node definition of texture coordinates of a type. -/
def texcoords (type : String) : Element :=
  { category := "nodedef", name := "ND_texcoord_" ++ type
    attributes := [("node", "texcoord"), ("type", type)] }

/-- A node that reads a set of texture coordinates with two and with three components. -/
def coordinates : Request :=
  request
    [texcoords "vector2", texcoords "vector3",
      definition "mix" "float" [input "a" "vector2", input "b" "vector3"],
      implementation "mix" "\x7b\x7ba\x7d\x7d.x + \x7b\x7bb\x7d\x7d.z",
      node "texcoord" "flat" "vector2" [], node "texcoord" "deep" "vector3" [],
      node "mix" "top" "float"
        [input "a" "vector2" [("nodename", "flat")], input "b" "vector3" [("nodename", "deep")]]]

end Graph.Sample

/-- The shader for this node. -/
def coordinatesShader : Except GenerationError GeneratedShader :=
  ({} : ShaderGenerator).generate Graph.Sample.coordinates.document (.empty []) "top" {}

theorem generate_stagesFit_iff_coordinates : ∃ shader, coordinatesShader = .ok shader ∧
    ∃ (g : ShaderGraph) (parts : ShaderParts), Graph.build Graph.Sample.coordinates "top" = .ok g ∧
      ∃ main : MainBody g false parts.pixelBody,
        ({} : ShaderGenerator).parts Graph.Sample.coordinates.document (.empty []) {} g main.nodes
          main.final (main.root.type = .closure .surfaceShader) = .ok parts ∧
        shader.vertexSource = parts.vertexSource ∧ shader.pixelSource = parts.pixelSource ∧
        shader.vertexInputs = parts.vertexInputs ∧
        (∃ assigned, parts.StagesShare main.nodes assigned) ∧
        (parts.StagesFit main.nodes ↔ TexcoordsFit main.nodes) := by
  have heval : coordinatesShader.toOption.map (·.name) = some "top" := by decide +kernel
  obtain ⟨shader, hshader, -⟩ := Graph.Sample.exists_ok_of_map heval
  exact ⟨shader, hshader, generate_stagesFit_iff hshader⟩

/-- Both nodes read one varying, whose type can only be that of one of them. -/
theorem not_stagesFit_coordinates : ∃ shader, coordinatesShader = .ok shader ∧
    ∃ (g : ShaderGraph) (parts : ShaderParts), Graph.build Graph.Sample.coordinates "top" = .ok g ∧
      ∃ main : MainBody g false parts.pixelBody,
        ({} : ShaderGenerator).parts Graph.Sample.coordinates.document (.empty []) {} g main.nodes
          main.final (main.root.type = .closure .surfaceShader) = .ok parts ∧
        shader.vertexSource = parts.vertexSource ∧ shader.pixelSource = parts.pixelSource ∧
        ¬ parts.StagesFit main.nodes := by
  have heval : coordinatesShader.toOption.map (·.name) = some "top" := by decide +kernel
  obtain ⟨shader, hshader, -⟩ := Graph.Sample.exists_ok_of_map heval
  obtain ⟨g, parts, hbuild, main, hparts, rfl⟩ := generate_main hshader
  refine ⟨_, hshader, g, parts, hbuild, main, hparts, rfl, rfl, fun hfit => ?_⟩
  have hgraph : (Graph.build Graph.Sample.coordinates "top").toOption.map (fun g =>
      (g.root, g.sources 2, g.nodes.map fun n => (n.texcoord?, Glsl.typeName? n.type))) =
      some (2, [0, 1], [(some 0, some "vec2"), (some 0, some "vec3"), (none, some "float")]) := by
    decide +kernel
  obtain ⟨g', hbuild', hview⟩ := Graph.Sample.exists_ok_of_map hgraph
  obtain rfl : g' = g := Except.ok.inj (hbuild'.symm.trans hbuild)
  simp only [Prod.mk.injEq] at hview
  obtain ⟨hroot, hsources, hnodes⟩ := hview
  have hfirst : ∀ i ∈ [0, 1], ∀ type, (g'.nodes.map fun n =>
        (n.texcoord?, Glsl.typeName? n.type))[i]? = some (some 0, some type) →
      ∃ m, firstReader? main.nodes 0 = some m ∧ Glsl.typeName? m.type = some type := by
    intro i hi type hview
    rw [List.getElem?_map] at hview
    obtain ⟨n, hn, hview⟩ := Option.map_eq_some_iff.mp hview
    obtain ⟨hreads, htype⟩ := Prod.mk.inj hview
    have hreaches : g'.Reaches i := by
      refine .single ?_
      show i ∈ g'.sources g'.root
      rw [hroot, hsources]
      exact hi
    have hmem := main.mem_nodes.mpr ⟨i, hreaches, hn⟩
    obtain ⟨-, m, hm, hfits⟩ := hfit.texcoordsFit (parts_madeFor hparts) n hmem 0 hreads
    rw [htype] at hfits
    exact ⟨m, hm, hfits⟩
  obtain ⟨m, hm, htwo⟩ := hfirst 0 (by decide) "vec2" (by rw [hnodes]; rfl)
  obtain ⟨m', hm', hthree⟩ := hfirst 1 (by decide) "vec3" (by rw [hnodes]; rfl)
  obtain rfl : m = m' := Option.some.inj (hm.symm.trans hm')
  exact absurd (htwo.symm.trans hthree) (by decide)

end MaterialViewer
