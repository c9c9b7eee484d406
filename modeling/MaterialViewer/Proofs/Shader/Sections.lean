import Mathlib.Data.List.TakeWhile
import MaterialViewer.Proofs.Shader.Lines
import MaterialViewer.Proofs.Shader.Uniforms

/-!
# Proofs: the sections of a source

What each section of the two sources declares. The blocks of uniforms declare their variables. The
functions, the block of varyings and the main functions declare no uniforms, and only in the lines of
functions and of the main function of the pixel stage there are texts of the document. The data of
lights are told apart from the other sections, as they have the fields.
-/

namespace MaterialViewer

open CodeBuffer

variable {d : Document} {files : FileTree} {searchPath : SearchPath}

/-! ## Function definitions -/

/-- What each element of a list keeps is kept by the list. -/
theorem foldlM_keeps {ε σ α : Type} {P : σ → Prop} {f : σ → α → Except ε σ} {xs : List α}
    {s s' : σ} (hstep : ∀ x ∈ xs, ∀ s s', P s → f s x = .ok s' → P s') (hs : P s)
    (h : xs.foldlM f s = .ok s') : P s' := by
  induction xs generalizing s with
  | nil => exact Except.ok.inj h ▸ hs
  | cons x xs ih =>
    obtain ⟨hx, hxs⟩ := List.forall_mem_cons.mp hstep
    rw [List.foldlM_cons] at h
    obtain ⟨s₁, hfirst, hrest⟩ := Graph.ok_bind.mp h
    exact ih hxs (hx s s₁ hs hfirst) hrest

/-- The definitions so far declare no uniforms, but for those in the files. -/
def SourceText.IsWritten (d : Document) (files : FileTree) (searchPath : SearchPath)
    (t : SourceText) : Prop :=
  Emits d files searchPath t.code.code []

section Functions

variable {t t' : SourceText} {uniforms : List DeclaredVariable} {b : CodeBuffer}

theorem SourceText.IsWritten.includeFile {record : Element} {implementation file : String}
    (ht : t.IsWritten d files searchPath) (hrecord : record ∈ d.implementations)
    (hfile : record.filled? "file" = some file)
    (h : t.includeFile files searchPath implementation file = .ok t') :
    t'.IsWritten d files searchPath := by
  unfold SourceText.includeFile at h
  split at h
  · cases h
  · rename_i path hpath
    dsimp only at h
    split at h
    · exact Except.ok.inj h ▸ ht
    · split at h
      · cases h
      · rename_i text htext
        obtain rfl := Except.ok.inj h
        have hplain : IsPlain ("// Included from " ++ "") := by decide
        have htitle : Emits d files searchPath
            (linesText t.code.depth ["// Included from " ++ file ++ ""]) [] :=
          .quotingLine (.file hrecord hfile) hplain
        rw [String.append_empty] at htitle
        refine Emits.blank ?_
        rw [block_code, line_code]
        exact (ht.append_plain htitle).append_plain
          (.file ⟨record, hrecord, file, path, hfile, hpath, htext⟩)

theorem SourceText.IsWritten.includeFor {n : ShaderNode} (ht : t.IsWritten d files searchPath)
    (hcode : ∀ code, n.code? = some code → code.ComesFrom d)
    (h : t.includeFor files searchPath n = .ok t') : t'.IsWritten d files searchPath := by
  unfold SourceText.includeFor at h
  split at h
  · rename_i name file function? hsource
    obtain ⟨record, hrecord, hfile, -, -⟩ := (hcode _ hsource).exists_record
    exact ht.includeFile hrecord hfile h
  · exact Except.ok.inj h ▸ ht

namespace LightKinds

/-- A kind of light that can be evaluated has a file and a function of an implementation. -/
theorem exists_record {k : LightKinds} {target : Target} {number : Nat}
    {name file function : String}
    (h : (number, name, file, function) ∈ k.evaluators d target) :
    ∃ record ∈ d.implementations, record.filled? "file" = some file ∧
      record.filled? "function" = some function := by
  obtain ⟨nodeDef, code?, -, hresolve⟩ := mem_evaluators_iff.mp h
  obtain ⟨record, hrecord, hfile, hfunction, -⟩ :=
    (Document.resolve_source hresolve).exists_record
  exact ⟨record, hrecord, hfile, hfunction⟩

theorem dispatchBranches_emits (isFirst : Bool) {branches : List (Nat × String)}
    (h : Emits d files searchPath b.code uniforms)
    (hbranches : ∀ branch ∈ branches, d.Supplies branch.2) :
    Emits d files searchPath (dispatchBranches isFirst b branches).code uniforms := by
  induction branches generalizing isFirst b with
  | nil => exact h
  | cons branch rest ih =>
    obtain ⟨number, function⟩ := branch
    obtain ⟨hfunction, hrest⟩ := List.forall_mem_cons.mp hbranches
    refine ih false (Emits.closeScope ?_ (by decide)) hrest
    have htest : OneLine s!"(light.type == {String.ofList (Number.natText number)})" :=
      oneLine_append.mpr ⟨oneLine_append.mpr
        ⟨by decide, oneLine_ofList (Number.newline_not_mem_natText number)⟩, by decide⟩
    have hbranch : IsPlain ((if isFirst then "if " else "else if ") ++
        s!"(light.type == {String.ofList (Number.natText number)})") := by
      cases isFirst <;> exact .of_front (oneLine_append.mpr ⟨by decide, htest⟩) (by decide)
    have hplain : IsPlain ("" ++ "(light, position, result);") := by decide
    have hcall : ∀ depth, Emits d files searchPath
        (linesText depth ["" ++ function ++ "(light, position, result);"]) [] :=
      fun depth => .quotingLine hfunction hplain
    simp only [String.empty_append] at hcall
    rw [line_code]
    exact ((h.bufferLine hbranch).openScope).append_plain (hcall _)

theorem dispatcher_emits {branches : List (Nat × String)}
    (h : Emits d files searchPath b.code uniforms)
    (hbranches : ∀ branch ∈ branches, d.Supplies branch.2) :
    Emits d files searchPath (dispatcher branches b).code uniforms := by
  have hopened := (h.bufferLine (by decide :
    IsPlain "void sampleLightSource(LightData light, vec3 position, out lightshader result)")
    ).openScope.bufferLines (by decide :
      ∀ text ∈ ["result.intensity = vec3(0.0);", "result.direction = vec3(0.0);"], IsPlain text)
  exact ((dispatchBranches_emits true hopened hbranches).closeScope (by decide)).blank

theorem evaluation_isWritten {k : LightKinds} {options : GeneratorOptions}
    (ht : t.IsWritten d files options.sourcePath) (h : k.evaluation d files options t = .ok t') :
    t'.IsWritten d files options.sourcePath := by
  unfold evaluation at h
  obtain ⟨t₁, hfiles, h⟩ := Graph.ok_bind.mp h
  obtain rfl := Except.ok.inj h
  have ht₁ : t₁.IsWritten d files options.sourcePath := by
    refine foldlM_keeps (fun evaluator hmem t t' ht hstep => ?_) ht hfiles
    obtain ⟨record, hrecord, hfile, -⟩ := exists_record hmem
    exact SourceText.IsWritten.includeFile ht hrecord hfile hstep
  refine dispatcher_emits ht₁ fun branch hbranch => ?_
  obtain ⟨evaluator, hmem, rfl⟩ := List.mem_map.mp hbranch
  obtain ⟨record, hrecord, -, hfunction⟩ := exists_record hmem
  exact .function hrecord hfunction

end LightKinds

theorem functions_isWritten {gen : ShaderGenerator} {options : GeneratorOptions} {isLit : Bool}
    {nodes : List ShaderNode}
    (hcode : ∀ n ∈ nodes, ∀ code, n.code? = some code → code.ComesFrom d)
    (h : gen.functions d files options isLit nodes = .ok t) :
    t.IsWritten d files options.sourcePath := by
  have hempty : SourceText.IsWritten d files options.sourcePath {} := .nil
  have hnodes {t₀ : SourceText} (ht₀ : t₀.IsWritten d files options.sourcePath)
      (h : nodes.foldlM (SourceText.includeFor files options.sourcePath) t₀ = .ok t) :
      t.IsWritten d files options.sourcePath :=
    foldlM_keeps (fun n hn t t' ht hstep => SourceText.IsWritten.includeFor ht (hcode n hn) hstep)
      ht₀ h
  unfold ShaderGenerator.functions at h
  cases isLit with
  | false => exact hnodes hempty h
  | true =>
    obtain ⟨t₀, hlights, hrest⟩ := Graph.ok_bind.mp h
    exact hnodes (LightKinds.evaluation_isWritten hempty hlights) hrest

end Functions

/-! ## Blocks of variables -/

namespace ShaderParts

section Blocks

variable {block : VariableBlock} {depth : Nat} {v : ShaderVariable}

/-- A uniform is declared with its name and type, and with the initial value in the code. -/
theorem declarationOf_initialized (hname : ∀ c ∈ v.name.toList, Glsl.isIdentifierChar c = true)
    {type : String} (htype : Glsl.typeName? v.type = some type) (literal? : Option String) :
    declarationOf ((match literal? with
      | some literal => type ++ " " ++ v.name ++ " = " ++ literal
      | none => type ++ " " ++ v.name) ++ ";").toList = ⟨type, v.name, literal?⟩ := by
  have hblank := (Glsl.word_of_typeName? htype).2.1
  cases literal? with
  | none =>
    have hsplit : (type ++ " " ++ v.name ++ ";").toList =
        type.toList ++ ' ' :: (v.name.toList ++ [';']) := by
      simp [String.toList_append]
    have hend : ∀ c ∈ [';'].head?, Glsl.isIdentifierChar c = false :=
      fun c hc => Option.some.inj hc ▸ by decide
    rw [hsplit, declarationOf_eq hblank hname hend]
    rfl
  | some literal =>
    have hsplit : (type ++ " " ++ v.name ++ " = " ++ literal ++ ";").toList =
        type.toList ++ ' ' :: (v.name.toList ++ (" = ".toList ++ (literal.toList ++ [';']))) := by
      simp [String.toList_append]
    have hinitializer : initializerOf? (" = ".toList ++ (literal.toList ++ [';'])) =
        some literal := by
      simp [initializerOf?]
    have hhead : ∀ c ∈ (" = ".toList ++ (literal.toList ++ [';'])).head?,
        Glsl.isIdentifierChar c = false := by
      rintro c ⟨⟩
      rfl
    rw [hsplit, declarationOf_eq hblank hname hhead, hinitializer]

theorem declaration?_read (hname : ∀ c ∈ v.name.toList, Glsl.isIdentifierChar c = true) :
    (v.declaration?.map fun text => declarationOf (text ++ ";").toList) = v.inCode? none := by
  unfold ShaderVariable.declaration? ShaderVariable.inCode?
  cases htype : Glsl.typeName? v.type with
  | none => rfl
  | some type => exact congrArg some (declarationOf_initialized hname htype none)

theorem initializedDeclaration?_read
    (hname : ∀ c ∈ v.name.toList, Glsl.isIdentifierChar c = true) :
    (v.initializedDeclaration?.map fun text => declarationOf (text ++ ";").toList) =
      v.inCode? (v.value?.bind Glsl.literal?) := by
  unfold ShaderVariable.initializedDeclaration? ShaderVariable.declaration? ShaderVariable.inCode?
  cases htype : Glsl.typeName? v.type with
  | none => rfl
  | some type => exact congrArg some (declarationOf_initialized hname htype _)

/-- The declaration of a variable is a plain line. -/
theorem isPlain_of_declaration? (hname : OneLine v.name) {text : String}
    (h : v.declaration? = some text) : IsPlain (text ++ ";") := by
  obtain ⟨type, htype, rfl⟩ := Option.map_eq_some_iff.mp h
  rw [String.append_assoc]
  exact .of_type htype (oneLine_append.mpr ⟨hname, by decide⟩)

theorem oneLine_of_initializedDeclaration? (hname : OneLine v.name) {text : String}
    (h : v.initializedDeclaration? = some text) : OneLine text := by
  obtain ⟨declaration, hdeclaration, rfl⟩ := Option.map_eq_some_iff.mp h
  have hline := (oneLine_append.mp (isPlain_of_declaration? hname hdeclaration).oneLine).1
  cases hliteral : v.value?.bind Glsl.literal? with
  | none => exact hline
  | some literal =>
    obtain ⟨value, -, hvalue⟩ := Option.bind_eq_some_iff.mp hliteral
    simp only [oneLine_append]
    exact ⟨⟨hline, by decide⟩, Glsl.oneLine_of_literal? hvalue⟩

theorem uniformOf?_uniformLine (text : String) :
    uniformOf? s!"uniform {text};" = some (declarationOf (text ++ ";").toList) := by
  rw [← uniformOf?_declaration, ← String.append_assoc]
  rfl

section UniformLines

variable {declaration? : ShaderVariable → Option String}

theorem uniformLines_own
    (hline : ∀ v ∈ block.entries, ∀ text, declaration? v = some text → OneLine text) :
    ∀ line ∈ uniformLines block declaration?, OneLine line ∧ line ≠ LightKinds.opening := by
  intro line hmem
  obtain ⟨v, hv, hmem⟩ := List.mem_filterMap.mp hmem
  obtain ⟨text, htext, rfl⟩ := Option.map_eq_some_iff.mp hmem
  refine ⟨?_, fun heq => ?_⟩
  · exact oneLine_append.mpr ⟨oneLine_append.mpr ⟨by decide, hline v hv text htext⟩, by decide⟩
  · have hnone : uniformOf? LightKinds.opening = none := by decide
    rw [← heq, uniformOf?_uniformLine] at hnone
    cases hnone

theorem uniformLines_read {read : ShaderVariable → Option DeclaredVariable}
    (hread : ∀ v ∈ block.entries,
      ((declaration? v).map fun text => declarationOf (text ++ ";").toList) = read v) :
    (uniformLines block declaration?).filterMap uniformOf? = block.entries.filterMap read := by
  rw [uniformLines, List.filterMap_filterMap]
  refine List.filterMap_congr fun v hv => ?_
  rw [← hread v hv]
  cases declaration? v with
  | none => rfl
  | some text => exact uniformOf?_uniformLine text

/-- A block of uniforms declares its variables, as their declarations are read. -/
theorem uniformsText_emits {title : String} {read : ShaderVariable → Option DeclaredVariable}
    (htitle : OneLine title)
    (hline : ∀ v ∈ block.entries, ∀ text, declaration? v = some text → OneLine text)
    (hread : ∀ v ∈ block.entries,
      ((declaration? v).map fun text => declarationOf (text ++ ";").toList) = read v) :
    Emits d files searchPath (uniformsText depth title block declaration?)
      (block.entries.filterMap read) := by
  unfold uniformsText
  split
  · rename_i hempty
    rw [List.isEmpty_iff.mp hempty]
    exact .nil
  · have hplain : IsPlain ("// Uniform block: " ++ title) :=
      .of_front (oneLine_append.mpr ⟨by decide, htitle⟩) (by decide)
    have hall : Emits d files searchPath (linesText depth ["// Uniform block: " ++ title] ++
        linesText depth (uniformLines block declaration?)) (block.entries.filterMap read) :=
      (Emits.plainLine hplain).append (uniformLines_read hread ▸ .lines (uniformLines_own hline))
    exact hall.append_plain (.plain (by decide : IsPlain ""))

end UniformLines

theorem privateText_emits {title : String} (htitle : OneLine title)
    (hnames : block.HasIdentifiers) :
    Emits d files searchPath (uniformsText depth title block (·.declaration?))
      (block.entries.filterMap (·.inCode? none)) :=
  uniformsText_emits htitle (fun v hv _ htext => (oneLine_append.mp
    (isPlain_of_declaration? (oneLine_of_identifier (hnames v hv)) htext).oneLine).1)
    fun v hv => declaration?_read (hnames v hv)

theorem publicText_emits {title : String} (htitle : OneLine title) (hnames : block.HasIdentifiers) :
    Emits d files searchPath (uniformsText depth title block (·.initializedDeclaration?))
      (block.entries.filterMap fun v => v.inCode? (v.value?.bind Glsl.literal?)) :=
  uniformsText_emits htitle (fun v hv _ htext =>
    oneLine_of_initializedDeclaration? (oneLine_of_identifier (hnames v hv)) htext)
    fun v hv => initializedDeclaration?_read (hnames v hv)

/-- The block of attributes declares no uniform. -/
theorem inputsText_emits (hname : ∀ v ∈ block.entries, OneLine v.name) :
    Emits d files searchPath (inputsText block) [] := by
  have hlines : ∀ line ∈ block.entries.filterMap fun v =>
      v.declaration?.map fun text => s!"in {text};", IsPlain line := by
    intro line hmem
    obtain ⟨v, hv, hline⟩ := List.mem_filterMap.mp hmem
    obtain ⟨text, htext, rfl⟩ := Option.map_eq_some_iff.mp hline
    have hplain := isPlain_of_declaration? (hname v hv) htext
    show IsPlain ("in " ++ text ++ ";")
    rw [String.append_assoc]
    exact .of_front (oneLine_append.mpr ⟨by decide, hplain.oneLine⟩) (by decide)
  exact ((Emits.plainLine (by decide)).append_plain (.plainLines hlines)).append_plain
    (.plain (by decide : IsPlain ""))

/-- The block of varyings declares no uniform. -/
theorem varyingsText_emits {qualifier : String} (hqualifier : IsPlain (qualifier ++ " VertexData"))
    (hname : ∀ v ∈ block.entries, OneLine v.name) :
    Emits d files searchPath (varyingsText depth qualifier block) [] := by
  unfold varyingsText
  split
  · exact .nil
  · have hlines : ∀ line ∈ block.entries.filterMap fun v => v.declaration?.map (· ++ ";"),
        IsPlain line := by
      intro line hmem
      obtain ⟨v, hv, hline⟩ := List.mem_filterMap.mp hmem
      obtain ⟨text, htext, rfl⟩ := Option.map_eq_some_iff.mp hline
      exact isPlain_of_declaration? (hname v hv) htext
    refine (Emits.plainLine hqualifier).append_plain ?_
    exact (((Emits.plainLine (by decide)).append_plain (.plainLines hlines)).append_plain
      (.plainLine (by decide))).append_plain (.plain (by decide : IsPlain ""))

end Blocks

/-! ## The vertex stage -/

section Vertex

theorem vertexMain_emits : Emits d files searchPath vertexMain [] := by
  have hlines : ∀ line ∈
      [s!"vec4 hPositionWorld = {Uniforms.worldMatrix} * vec4({VertexAttribute.position}, 1.0);",
        s!"gl_Position = {Uniforms.viewProjectionMatrix} * hPositionWorld;"], IsPlain line := by
    decide
  exact ((Emits.plainLine (by decide)).append_plain (.plainLine (by decide))).append_plain
    (.plainLines hlines)

/-- The assignments of varyings declare no uniforms. -/
theorem assignVarying_emits {b : CodeBuffer} {varying value : String}
    (h : Emits d files searchPath b.code []) (hvarying : OneLine varying) (hvalue : OneLine value) :
    Emits d files searchPath (b.assignVarying varying value).code [] := by
  unfold CodeBuffer.assignVarying
  split
  · exact h
  · refine Emits.bufferLine h ?_
    have hline : s!"{Varying.block}.{varying} = {value};" =
        Varying.block ++ ("." ++ varying ++ " = " ++ value ++ ";") := by
      simp only [← String.append_assoc]
      rfl
    rw [hline]
    refine .of_front ?_ (by decide)
    simp only [oneLine_append]
    exact ⟨by decide, ⟨⟨⟨by decide, hvarying⟩, by decide⟩, hvalue⟩, by decide⟩

theorem assignAll_emits {b : CodeBuffer} {needs : List GeometryNeeds}
    (h : Emits d files searchPath b.code [])
    (hneeds : ∀ need ∈ needs, OneLine need.varying.name ∧ OneLine need.value) :
    Emits d files searchPath
      (needs.foldl (fun b need => b.assignVarying need.varying.name need.value) b).code [] := by
  induction needs generalizing b with
  | nil => exact h
  | cons need needs ih =>
    obtain ⟨⟨hvarying, hvalue⟩, hrest⟩ := List.forall_mem_cons.mp hneeds
    exact ih (assignVarying_emits h hvarying hvalue) hrest

variable {p : ShaderParts} {options : GeneratorOptions} {g : ShaderGraph} {nodes : List ShaderNode}
  {isLit : Bool}

theorem MadeFor.vertexBody_emits (h : p.MadeFor options g nodes isLit) :
    Emits d files searchPath p.vertexBody.code [] := by
  rw [h.vertexBody]
  refine assignAll_emits ?_ fun need hneed => ?_
  · cases isLit with
    | false => exact .nil
    | true =>
      have hempty : Emits d files searchPath ({ depth := 1 } : CodeBuffer).code [] := .nil
      exact assignVarying_emits hempty (by decide : OneLine Varying.positionWorld)
        (by decide : OneLine "hPositionWorld.xyz")
  · obtain ⟨n, -, hneed⟩ := List.mem_filterMap.mp hneed
    exact needs_oneLine hneed

theorem MadeFor.oneLine_vertexInputs (h : p.MadeFor options g nodes isLit) :
    ∀ v ∈ p.vertexInputs.entries, OneLine v.name := by
  have hvectors : ∀ name ∈ VertexAttribute.vectors, OneLine name := by decide
  intro v hv
  rcases h.mem_vertexInputs hv with ⟨hvector, -⟩ | ⟨n, -, index, -, heq⟩
  · exact hvectors _ hvector
  · exact heq ▸ (oneLine_texcoord index).1

theorem MadeFor.oneLine_varyings (h : p.MadeFor options g nodes isLit) :
    ∀ v ∈ p.varyings.entries, OneLine v.name := by
  have hvectors : ∀ name ∈ Varying.vectors, OneLine name := by decide
  intro v hv
  rcases h.mem_varyings hv with ⟨hvector, -⟩ | ⟨n, -, index, -, heq⟩
  · exact hvectors _ hvector
  · exact heq ▸ (oneLine_texcoord index).2

/-- The vertex stage declares its uniforms. -/
theorem MadeFor.vertexSource_emits (h : p.MadeFor options g nodes isLit)
    (hnames : p.vertexUniforms.HasIdentifiers) :
    Emits d files searchPath p.vertexSource
      (p.vertexUniforms.entries.filterMap (·.inCode? none)) := by
  have huniforms : Emits d files searchPath
      (uniformsText 0 "PrivateUniforms" p.vertexUniforms (·.declaration?))
      (p.vertexUniforms.entries.filterMap (·.inCode? none)) :=
    privateText_emits (by decide) hnames
  have hhead : Emits d files searchPath (linesText 0 [versionDirective] ++ "\n") [] :=
    (Emits.plainLine (by decide)).append_plain (.plain (by decide : IsPlain ""))
  have hinputs := (hhead.append huniforms).append_plain (inputsText_emits h.oneLine_vertexInputs)
  have hvaryings : Emits d files searchPath (varyingsText 0 "out" p.varyings) [] :=
    varyingsText_emits (by decide) h.oneLine_varyings
  have hmain := (hinputs.append_plain hvaryings).append_plain vertexMain_emits
  rw [vertexSource_eq]
  exact (hmain.append_plain h.vertexBody_emits).append_plain (.plain (by decide : IsPlain "\x7d"))

end Vertex

/-! ## The pixel stage -/

section Pixel

theorem closureDefinitions_emits :
    Emits d files searchPath (blockText Glsl.closureDefinitions) [] := by
  have hlines : Glsl.closureDefinitions = linesText 0
      ["#define BSDF vec3", "#define EDF vec3", "#define VDF vec3",
        "struct surfaceshader \x7b vec3 color; vec3 transparency; \x7d;",
        "struct volumeshader \x7b vec3 color; vec3 transparency; \x7d;",
        "struct displacementshader \x7b vec3 offset; float scale; \x7d;",
        "struct lightshader \x7b vec3 intensity; vec3 direction; \x7d;"] := by decide +kernel
  rw [hlines, blockText_linesText (List.cons_ne_nil _ _)]
  exact .plainLines (by decide)

theorem pixelHead_emits (p : ShaderParts) : Emits d files searchPath p.pixelHead [] := by
  have hblank : Emits d files searchPath "\n" [] := .plain (by decide : IsPlain "")
  have hroom : Emits d files searchPath (if p.maxLights = 0 then ""
      else linesText 0 [s!"#define MAX_LIGHT_SOURCES {p.maxLights}"] ++ "\n") [] := by
    split
    · exact .nil
    · have hnumber : OneLine (toString p.maxLights) :=
        oneLine_ofList (Number.newline_not_mem_natText p.maxLights)
      have hplain : IsPlain ("#define MAX_LIGHT_SOURCES " ++ toString p.maxLights) :=
        .of_front (oneLine_append.mpr ⟨by decide, hnumber⟩) (by decide)
      exact (Emits.plainLine hplain).append_plain hblank
  exact (((Emits.plainLine (by decide)).append_plain hblank).append_plain hroom).append_plain
    closureDefinitions_emits |>.append_plain hblank

theorem outputText_emits : Emits d files searchPath outputText [] := by
  have hlines : ∀ line ∈ ["// Pixel shader outputs", s!"out vec4 {Glsl.outputColor};"],
      IsPlain line := by decide
  exact (Emits.plainLines hlines).append_plain (.plain (by decide : IsPlain ""))

/-- The main function declares no uniforms, but for those in code of the document. -/
theorem mainText_emits {statements : List Statement}
    (h : ∀ s ∈ statements, s.IsWritten d files searchPath) :
    Emits d files searchPath (mainText statements) [] := by
  have hbody : Emits d files searchPath (linesText 1 (statements.map Statement.render)) [] := by
    induction statements with
    | nil => exact .nil
    | cons s statements ih =>
      obtain ⟨hs, hrest⟩ := List.forall_mem_cons.mp h
      rw [List.map_cons, ← List.singleton_append, linesText_append]
      exact (hs 1).append_plain (ih hrest)
  have hopening : Emits d files searchPath ("void main()" ++ "\n" ++ ("\x7b" ++ "\n")) [] :=
    (Emits.plain (by decide)).append_plain (.plain (by decide))
  unfold mainText
  dsimp only
  rw [lines_code_eq, String.empty_append]
  exact (hopening.append_plain hbody).append_plain (.plain (by decide : IsPlain "\x7d"))

end Pixel

end ShaderParts

/-! ## The data of lights -/

namespace LightKinds

/-- The lines that declare the fields of the data of lights. -/
def fieldLines (fields : VariableBlock) : List String :=
  fields.entries.filterMap fun v => v.declaration?.map fun text => "    " ++ text ++ ";"

/-- The line that declares the data of lights. -/
def arrayLine : String := s!"uniform LightData {Uniforms.lightData}[MAX_LIGHT_SOURCES];"

/-- The lines that declare the data of lights with their fields. -/
def dataLines (fields : VariableBlock) : List String :=
  opening :: "\x7b" :: (fieldLines fields ++ ["\x7d;", "", arrayLine, ""])

variable {fields : VariableBlock}

/-- The declarations of the data of lights, with the last line told apart. -/
theorem declarations_eq (fields : VariableBlock) :
    declarations fields = "struct LightData\n\x7b\n" ++
      String.join (fields.entries.filterMap fun v =>
        v.declaration?.map fun text => "    " ++ text ++ ";\n") ++
      "\x7d;\n\n" ++ arrayLine ++ "\n" := by
  have harray : s!"uniform LightData {Uniforms.lightData}[MAX_LIGHT_SOURCES];\n" =
      arrayLine ++ "\n" := by decide +kernel
  unfold declarations
  dsimp only
  rw [harray, ← String.append_assoc]

theorem textOf_dataLines (fields : VariableBlock) :
    textOf ((dataLines fields).map .line) = blockText (declarations fields) ++ "\n" := by
  have hfields : String.join ((fieldLines fields).map (· ++ "\n")) =
      String.join (fields.entries.filterMap fun v =>
        v.declaration?.map fun text => "    " ++ text ++ ";\n") := by
    rw [fieldLines, List.map_filterMap]
    refine congrArg String.join (List.filterMap_congr fun v _ => ?_)
    cases v.declaration? with
    | none => rfl
    | some text => exact congrArg some String.append_assoc
  have hlines : textOf ((dataLines fields).map .line) =
      String.join ((dataLines fields).map (· ++ "\n")) := by
    rw [textOf, List.map_map]
    rfl
  have hopening : opening ++ "\n" ++ ("\x7b" ++ "\n") = "struct LightData\n\x7b\n" := by
    decide +kernel
  have hclosing : "\x7d;" ++ "\n" ++ ("" ++ "\n") = "\x7d;\n\n" := by decide +kernel
  rw [declarations_eq, blockText_append_break, hlines, ← hfields, ← hopening, ← hclosing,
    dataLines]
  simp only [List.map_cons, List.map_nil, List.map_append, String.join_cons, String.join_append,
    String.join_nil, String.append_empty, String.empty_append, String.append_assoc]

/-- A field is read off its line. -/
theorem fieldLines_read (hnames : fields.HasIdentifiers) :
    ((fieldLines fields).map fun line => declarationOf (codeOf line)) =
      fields.entries.filterMap (·.inCode? none) := by
  rw [fieldLines, List.map_filterMap]
  refine List.filterMap_congr fun v hv => ?_
  rw [← ShaderParts.declaration?_read (hnames v hv)]
  cases hdeclaration : v.declaration? with
  | none => rfl
  | some text =>
    obtain ⟨type, htype, rfl⟩ := Option.map_eq_some_iff.mp hdeclaration
    have hword : wordOf (type ++ " " ++ (v.name ++ ";")).toList ≠ [] := by
      rw [wordOf_type htype]
      exact fun heq => (Glsl.word_of_typeName? htype).2.2 (heq ▸ List.mem_cons_self)
    have hindented : codeOf ("    " ++ (type ++ " " ++ (v.name ++ ";"))) =
        (type ++ " " ++ (v.name ++ ";")).toList := (codeOf_indentation 1 _).trans (codeOf_eq hword)
    simp only [Option.map_some, String.append_assoc] at hindented ⊢
    rw [hindented]

/-- The fields are read between the braces. -/
theorem lightFieldsOf_append {before after : List String} (hbefore : opening ∉ before)
    (hnames : fields.HasIdentifiers) :
    lightFieldsOf (before ++ (dataLines fields ++ after)) =
      fields.entries.filterMap (·.inCode? none) := by
  have hskip : ∀ line ∈ before, decide (line ≠ opening) = true :=
    fun line hline => decide_eq_true fun heq => hbefore (heq ▸ hline)
  have hkeep : ∀ line ∈ fieldLines fields, decide (line ≠ "\x7d;") = true := by
    intro line hline
    obtain ⟨v, -, hv⟩ := List.mem_filterMap.mp hline
    obtain ⟨text, -, rfl⟩ := Option.map_eq_some_iff.mp hv
    refine decide_eq_true fun heq => ?_
    have hhead := congrArg (fun line : String => line.toList.head?) heq
    simp [String.toList_append] at hhead
  rw [lightFieldsOf, List.dropWhile_append_of_pos hskip, dataLines, ← fieldLines_read hnames]
  simp only [List.cons_append, List.append_assoc, ne_eq, not_true_eq_false, decide_false,
    Bool.false_eq_true, not_false_eq_true, List.dropWhile_cons_of_neg, List.drop_succ_cons,
    List.drop_zero, List.takeWhile_append_of_pos hkeep, List.takeWhile_cons_of_neg, List.append_nil]

/-- Nothing is read where the data of lights are not opened. -/
theorem lightFieldsOf_eq_nil {lines : List String} (h : opening ∉ lines) :
    lightFieldsOf lines = [] := by
  have hskip : ∀ line ∈ lines, decide (line ≠ opening) = true :=
    fun line hline => decide_eq_true fun heq => h (heq ▸ hline)
  have hnothing : lines.dropWhile (fun line => decide (line ≠ opening)) = [] :=
    List.dropWhile_eq_nil_iff.mpr hskip
  rw [lightFieldsOf, hnothing]
  rfl

end LightKinds

end MaterialViewer
