import MaterialViewer.Shader.Generate

/-!
# Proofs: the texts of both sources

A source is put together in a buffer, line by line. Here it is told as a text of sections: the
blocks of uniforms, the block of varyings, which is one text in both sources, and what comes between
and after them. The kinds of light that a source can evaluate are those with a function in a file.
-/

namespace MaterialViewer

namespace CodeBuffer

variable (b : CodeBuffer) (text : String)

/-- The text of lines at a depth. -/
def linesText (depth : Nat) (texts : List String) : String :=
  String.join (texts.map fun text => indentation depth ++ text ++ "\n")

theorem linesText_cons (depth : Nat) (texts : List String) :
    linesText depth (text :: texts) =
      indentation depth ++ text ++ "\n" ++ linesText depth texts := by
  rw [linesText, List.map_cons, String.join_cons, linesText]

theorem linesText_append (depth : Nat) (texts texts' : List String) :
    linesText depth (texts ++ texts') = linesText depth texts ++ linesText depth texts' := by
  rw [linesText, List.map_append, String.join_append, linesText, linesText]

/-- The text of a block, with a line break at its end. -/
def blockText : String := if text.toList.getLast? = some '\n' then text else text ++ "\n"

/-- A block that ends in a line break is left as it is. -/
theorem blockText_append_break : blockText (text ++ "\n") = text ++ "\n" := by
  have hbreak : "\n".toList.getLast? = some '\n' := rfl
  exact if_pos (by rw [String.toList_append, List.getLast?_append, hbreak, Option.some_or])

theorem blockText_linesText {texts : List String} (h : texts ≠ []) (depth : Nat) :
    blockText (linesText depth texts) = linesText depth texts := by
  have hlast : linesText depth texts =
      linesText depth texts.dropLast ++ (indentation depth ++ texts.getLast h) ++ "\n" := by
    have hsingle : linesText depth [texts.getLast h] =
        indentation depth ++ texts.getLast h ++ "\n" := by simp [linesText]
    rw [String.append_assoc, ← hsingle, ← linesText_append, List.dropLast_concat_getLast]
  rw [hlast, blockText_append_break]

@[simp] theorem line_code : (b.line text).code = b.code ++ linesText b.depth [text] := by
  rw [linesText_cons, line]
  simp only [String.append_assoc, linesText, List.map_nil, String.join_nil, String.append_empty]

@[simp] theorem line_depth : (b.line text).depth = b.depth := rfl

@[simp] theorem blank_code : b.blank.code = b.code ++ "\n" := rfl

@[simp] theorem blank_depth : b.blank.depth = b.depth := rfl

@[simp] theorem block_code : (b.block text).code = b.code ++ blockText text := rfl

@[simp] theorem block_depth : (b.block text).depth = b.depth := rfl

@[simp] theorem openScope_code : b.openScope.code = b.code ++ linesText b.depth ["\x7b"] :=
  line_code b "\x7b"

@[simp] theorem openScope_depth : b.openScope.depth = b.depth + 1 := rfl

@[simp] theorem closeScope_code :
    (b.closeScope text).code = b.code ++ linesText (b.depth - 1) ["\x7d" ++ text] :=
  line_code { b with depth := b.depth - 1 } ("\x7d" ++ text)

@[simp] theorem closeScope_depth : (b.closeScope text).depth = b.depth - 1 := rfl

@[simp] theorem lines_depth (texts : List String) : (b.lines texts).depth = b.depth := by
  unfold lines
  induction texts generalizing b with
  | nil => rfl
  | cons text rest ih => exact ih (b.line text)

@[simp] theorem lines_code_eq (texts : List String) :
    (b.lines texts).code = b.code ++ linesText b.depth texts := by
  unfold lines
  induction texts generalizing b with
  | nil => exact String.append_empty.symm
  | cons text rest ih =>
    rw [List.foldl_cons, ih, line_depth, linesText_cons, line]
    simp only [String.append_assoc]

end CodeBuffer

namespace ShaderParts

open CodeBuffer

/-- The lines that declare the uniforms of a block. -/
def uniformLines (block : VariableBlock) (declaration? : ShaderVariable → Option String) :
    List String :=
  block.entries.filterMap fun v => (declaration? v).map fun text => s!"uniform {text};"

/-- The text of a block of uniforms under a title. -/
def uniformsText (depth : Nat) (title : String) (block : VariableBlock)
    (declaration? : ShaderVariable → Option String) : String :=
  if block.entries.isEmpty then ""
  else
    linesText depth ["// Uniform block: " ++ title] ++
      linesText depth (uniformLines block declaration?) ++ "\n"

/-- The block of varyings as it stands in both sources. -/
def varyingsBlock (depth : Nat) (varyings : VariableBlock) : String :=
  linesText depth ["\x7b"] ++
    linesText (depth + 1) (varyings.entries.filterMap fun v => v.declaration?.map (· ++ ";")) ++
    linesText depth ["\x7d" ++ s!" {Varying.block};"] ++ "\n"

/-- The text of the block of varyings after a qualifier. -/
def varyingsText (depth : Nat) (qualifier : String) (varyings : VariableBlock) : String :=
  if varyings.entries.isEmpty then ""
  else linesText depth [qualifier ++ " VertexData"] ++ varyingsBlock depth varyings

section Sections

variable (b : CodeBuffer) (block : VariableBlock)

@[simp] theorem declareUniforms_code (title : String)
    (declaration? : ShaderVariable → Option String) :
    (declareUniforms title block declaration? b).code =
      b.code ++ uniformsText b.depth title block declaration? := by
  unfold declareUniforms uniformsText
  split
  · exact String.append_empty.symm
  · simp only [blank_code, lines_code_eq, line_code, line_depth, uniformLines, String.append_assoc]

@[simp] theorem declareUniforms_depth (title : String)
    (declaration? : ShaderVariable → Option String) :
    (declareUniforms title block declaration? b).depth = b.depth := by
  unfold declareUniforms
  split
  · rfl
  · simp only [blank_depth, lines_depth, line_depth]

@[simp] theorem declareVaryings_code (qualifier : String) :
    (declareVaryings qualifier block b).code = b.code ++ varyingsText b.depth qualifier block := by
  unfold declareVaryings varyingsText
  split
  · exact String.append_empty.symm
  · simp only [blank_code, closeScope_code, lines_code_eq, lines_depth, openScope_code,
      openScope_depth, line_code, line_depth, varyingsBlock, Nat.add_sub_cancel,
      String.append_assoc]

@[simp] theorem declareVaryings_depth (qualifier : String) :
    (declareVaryings qualifier block b).depth = b.depth := by
  unfold declareVaryings
  split
  · rfl
  · simp only [blank_depth, closeScope_depth, lines_depth, openScope_depth, line_depth,
      Nat.add_sub_cancel]

end Sections

/-! ## The vertex stage -/

/-- The attributes as the source of the vertex stage declares them. -/
def inputsText (inputs : VariableBlock) : String :=
  linesText 0 ["// Inputs block: VertexInputs"] ++
    linesText 0 (inputs.entries.filterMap fun v =>
      v.declaration?.map fun text => s!"in {text};") ++ "\n"

/-- The beginning of the main function of the vertex stage. -/
def vertexMain : String :=
  linesText 0 ["void main()"] ++ linesText 0 ["\x7b"] ++ linesText 1
    [s!"vec4 hPositionWorld = {Uniforms.worldMatrix} * vec4({VertexAttribute.position}, 1.0);",
      s!"gl_Position = {Uniforms.viewProjectionMatrix} * hPositionWorld;"]

theorem vertexSource_eq (p : ShaderParts) :
    p.vertexSource = linesText 0 [versionDirective] ++ "\n" ++
      uniformsText 0 "PrivateUniforms" p.vertexUniforms (·.declaration?) ++
      inputsText p.vertexInputs ++ varyingsText 0 "out" p.varyings ++ vertexMain ++
      p.vertexBody.code ++ "\x7d\n" := by
  unfold vertexSource inputsText vertexMain
  simp only [lines_code_eq, openScope_code, openScope_depth, line_code, line_depth, blank_code,
    blank_depth, lines_depth, declareUniforms_code, declareUniforms_depth, declareVaryings_code,
    declareVaryings_depth, Nat.zero_add, String.empty_append, String.append_assoc]

/-! ## The pixel stage -/

/-- The beginning of the source of the pixel stage. -/
def pixelHead (p : ShaderParts) : String :=
  linesText 0 [versionDirective] ++ "\n" ++
    (if p.maxLights = 0 then ""
      else linesText 0 [s!"#define MAX_LIGHT_SOURCES {p.maxLights}"] ++ "\n") ++
    blockText Glsl.closureDefinitions ++ "\n"

/-- The data of lights as the source of the pixel stage declares it. -/
def lightsText (p : ShaderParts) : String :=
  if p.maxLights = 0 then "" else blockText (LightKinds.declarations p.lightData) ++ "\n"

/-- The output as the source of the pixel stage declares it. -/
def outputText : String :=
  linesText 0 ["// Pixel shader outputs", s!"out vec4 {Glsl.outputColor};"] ++ "\n"

theorem pixelSource_eq (p : ShaderParts) :
    p.pixelSource = p.pixelHead ++
      uniformsText 0 "PrivateUniforms" p.pixelUniforms (·.declaration?) ++
      uniformsText 0 "PublicUniforms" p.publicUniforms (·.initializedDeclaration?) ++
      p.lightsText ++ varyingsText 0 "in" p.varyings ++ outputText ++ p.functions.code.code ++
      mainText p.pixelBody := by
  unfold pixelSource pixelHead lightsText outputText
  by_cases hlit : p.maxLights = 0
  · simp only [if_pos hlit, lines_code_eq, block_code, block_depth, line_code, line_depth,
      blank_code, blank_depth, declareUniforms_code, declareUniforms_depth, declareVaryings_code,
      declareVaryings_depth, String.empty_append, String.append_assoc]
  · simp only [if_neg hlit, lines_code_eq, block_code, block_depth, line_code, line_depth,
      blank_code, blank_depth, declareUniforms_code, declareUniforms_depth, declareVaryings_code,
      declareVaryings_depth, String.empty_append, String.append_assoc]

end ShaderParts

/-! ## Kinds of light -/

/-- A kind is evaluated if its definition is implemented by a function of a file. -/
theorem LightKinds.mem_evaluators_iff {k : LightKinds} {d : Document} {target : Target}
    {number : Nat} {name file function : String} :
    (number, name, file, function) ∈ k.evaluators d target ↔
      ∃ nodeDef code?, (nodeDef, number) ∈ k.entries ∧
        d.resolve nodeDef target = .ok (.source name (some file) (some function) code?) := by
  unfold evaluators
  rw [List.mem_filterMap]
  constructor
  · rintro ⟨⟨nodeDef, number'⟩, hentry, hfound⟩
    obtain ⟨found, hevaluator, heq⟩ := Option.map_eq_some_iff.mp hfound
    obtain ⟨rfl, rfl⟩ := Prod.mk.inj heq
    unfold evaluator? at hevaluator
    split at hevaluator
    · rename_i name' file' function' code? hresolve
      obtain ⟨rfl, hrest⟩ := Prod.mk.inj (Option.some.inj hevaluator)
      obtain ⟨rfl, rfl⟩ := Prod.mk.inj hrest
      exact ⟨nodeDef, code?, hentry, hresolve⟩
    · cases hevaluator
  · rintro ⟨nodeDef, code?, hentry, hresolve⟩
    refine ⟨(nodeDef, number), hentry, ?_⟩
    simp only [evaluator?, hresolve, Option.map_some]

end MaterialViewer
