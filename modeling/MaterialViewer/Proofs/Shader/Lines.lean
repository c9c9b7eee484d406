import MaterialViewer.Proofs.Graph.Coded
import MaterialViewer.Proofs.Graph.Uniforms
import MaterialViewer.Proofs.Number.Decimal
import MaterialViewer.Proofs.Shader.Emission
import MaterialViewer.Proofs.Shader.Stages

/-!
# Proofs: code on one line

Names, literals and the expressions for inputs have no line breaks in them, so a statement is one line
of the source. Only the code and the functions of implementations, which are taken over as the
document has them, may hold more.
-/

namespace MaterialViewer

/-! ## Numbers -/

namespace Number

theorem newline_not_mem_natText (n : Nat) : '\n' ∉ natText n :=
  fun hmem => absurd (isDigit_of_mem_natText hmem) (by decide)

theorem newline_not_mem_int32Text (i : Int32) : '\n' ∉ int32Text i := by
  unfold int32Text
  split
  · exact List.not_mem_cons_of_ne_of_not_mem (by decide) (newline_not_mem_natText _)
  · exact newline_not_mem_natText _

theorem newline_not_mem_positional {digits : List Char} (h : ∀ c ∈ digits, c.isDigit = true)
    (point : Int) (places : Nat) : '\n' ∉ positional digits point places := by
  intro hmem
  rcases (positional_chars h point places).2 _ hmem with hdigit | hpoint
  · exact absurd hdigit (by decide)
  · exact absurd hpoint (by decide)

theorem newline_not_mem_scientific {digits : List Char} (h : ∀ c ∈ digits, c.isDigit = true)
    (point : Int) : '\n' ∉ scientific digits point := by
  have hsign : '\n' ∉ if point - 1 < 0 then ['-'] else [] := by split <;> decide
  simp only [scientific, List.mem_append, List.mem_cons, not_or]
  exact ⟨⟨newline_not_mem_positional h 1 0, by decide, hsign⟩, newline_not_mem_natText _⟩

theorem newline_not_mem_exactText (x : Single) : '\n' ∉ exactText x := by
  have hdigits := isDigit_of_mem_significand (.shortest x)
  unfold exactText signedText
  split
  · decide
  · have hsign : '\n' ∉ if x.isNegative then ['-'] else [] := by split <;> decide
    refine List.not_mem_append hsign ?_
    split
    · decide
    · dsimp only
      split
      · exact newline_not_mem_scientific hdigits _
      · exact newline_not_mem_positional hdigits _ 1

end Number

/-! ## Names and literals -/

theorem oneLine_ofList {cs : List Char} (h : '\n' ∉ cs) : OneLine (String.ofList cs) := by
  rwa [OneLine, String.toList_ofList]

theorem oneLine_of_identifier {name : String}
    (h : ∀ c ∈ name.toList, Glsl.isIdentifierChar c = true) : OneLine name :=
  fun hmem => absurd (h _ hmem) (by decide)

theorem oneLine_joinWith {separator : String} {parts : List String} (hseparator : OneLine separator)
    (hparts : ∀ part ∈ parts, OneLine part) : OneLine (Text.joinWith separator parts) := by
  unfold Text.joinWith
  induction parts with
  | nil =>
    rw [String.intercalate_nil]
    decide
  | cons part parts ih =>
    obtain ⟨hpart, hrest⟩ := List.forall_mem_cons.mp hparts
    cases parts with
    | nil => rwa [String.intercalate_singleton]
    | cons next parts =>
      rw [String.intercalate_cons_cons, oneLine_append, oneLine_append]
      exact ⟨⟨hpart, hseparator⟩, ih hrest⟩

namespace Glsl

variable {type : ValueType} {text : String}

/-- The name of a type is a word, and none of those that matter for the reading of lines. -/
theorem word_of_typeName? (h : typeName? type = some text) :
    OneLine text ∧ ' ' ∉ text.toList ∧
      text.toList ∉ [[], "uniform".toList, "struct".toList] := by
  cases type with
  | tuple shape =>
    obtain rfl := Option.some.inj h
    cases shape <;> decide
  | closure kind =>
    obtain rfl := Option.some.inj h
    cases kind <;> decide
  | boolean | integer | float | filename =>
    obtain rfl := Option.some.inj h
    decide
  | string | integerArray | floatArray | stringArray | custom name => cases h

theorem oneLine_floatLiteral (x : Single) : OneLine (floatLiteral x) := by
  unfold floatLiteral
  split
  · exact oneLine_ofList (Number.newline_not_mem_exactText x)
  · decide

theorem oneLine_constructorText {name : String} (hname : OneLine name) (components : List Single) :
    OneLine (constructorText name components) := by
  have hparts : ∀ part ∈ components.map floatLiteral, OneLine part := by
    intro part hpart
    obtain ⟨x, -, rfl⟩ := List.mem_map.mp hpart
    exact oneLine_floatLiteral x
  simp only [constructorText, oneLine_append]
  exact ⟨⟨⟨hname, by decide⟩, oneLine_joinWith (by decide) hparts⟩, by decide⟩

theorem oneLine_of_literal? {value : Value} (h : literal? value = some text) : OneLine text := by
  cases value with
  | boolean b =>
    obtain rfl := Option.some.inj h
    cases b <;> decide
  | integer i =>
    obtain rfl := Option.some.inj h
    exact oneLine_ofList (Number.newline_not_mem_int32Text i)
  | float x =>
    obtain rfl := Option.some.inj h
    exact oneLine_floatLiteral x
  | tuple shape components _ =>
    obtain rfl := Option.some.inj h
    exact oneLine_constructorText (by cases shape <;> decide) _
  | string _ | filename _ | integerArray _ | floatArray _ | stringArray _ => cases h

theorem oneLine_of_defaultLiteral? (h : defaultLiteral? type = some text) : OneLine text := by
  unfold defaultLiteral? at h
  split at h
  · rename_i kind
    obtain rfl := Option.some.inj h
    cases kind <;> decide
  · obtain ⟨value, -, hvalue⟩ := Option.bind_eq_some_iff.mp h
    exact oneLine_of_literal? hvalue

end Glsl

theorem wordOf_type {type : ValueType} {text rest : String}
    (htype : Glsl.typeName? type = some text) :
    wordOf (text ++ " " ++ rest).toList = text.toList := by
  obtain ⟨-, hblank, -⟩ := Glsl.word_of_typeName? htype
  have htext : ∀ c ∈ text.toList, decide (c ≠ ' ') = true :=
    fun c hc => decide_eq_true fun heq => hblank (heq ▸ hc)
  have hsplit : (text ++ " " ++ rest).toList = text.toList ++ ' ' :: rest.toList := by
    simp [String.toList_append]
  rw [hsplit, wordOf, List.takeWhile_append_of_pos htext]
  simp

/-- A line that begins with the name of a type is plain. -/
theorem IsPlain.of_type {type : ValueType} {text rest : String}
    (htype : Glsl.typeName? type = some text) (hrest : OneLine rest) :
    IsPlain (text ++ " " ++ rest) := by
  obtain ⟨hline, -, hword⟩ := Glsl.word_of_typeName? htype
  refine .of_word (by simp only [oneLine_append]; exact ⟨⟨hline, by decide⟩, hrest⟩) ?_
  rwa [wordOf_type htype]

/-! ## Expressions -/

theorem oneLine_ofText {text : String} :
    OneLine (Expression.ofText text).render ↔ OneLine text := by
  have hrender : (Expression.ofText text).render = text := by
    simp [Expression.ofText, Expression.render, Fragment.render]
  rw [hrender]

theorem ShaderInput.oneLine_fallback (input : ShaderInput) : OneLine input.fallback := by
  unfold fallback
  cases hdefault : Glsl.defaultLiteral? input.type with
  | none => decide
  | some text => exact Glsl.oneLine_of_defaultLiteral? hdefault

namespace Graph

variable {b : Build} {path : String} {root : Nat} {n : ShaderNode}

theorem Sound.oneLine_name (h : Sound b) (hn : n ∈ b.nodes) : OneLine n.name :=
  oneLine_of_identifier (h.identifier _ (h.node_named n hn))

theorem Sound.oneLine_outputVariable (h : Sound b) (hn : n ∈ b.nodes) :
    OneLine n.outputVariable :=
  oneLine_append.mpr ⟨h.oneLine_name hn, by decide⟩

/-- The expression for an input of a node is on one line. -/
theorem Sound.oneLine_inputExpression (h : Sound b) (hn : n ∈ b.nodes) {input : ShaderInput}
    (hinput : input ∈ n.inputs) : OneLine ((b.graph path root).inputExpression input).render := by
  obtain ⟨j, hj⟩ := List.mem_iff_getElem?.mp hn
  have hsourced := h.sourced j n hj input hinput
  have hfallback := oneLine_ofText.mpr input.oneLine_fallback
  unfold ShaderGraph.inputExpression
  split
  · split
    · rename_i node hnode
      have hrender : Expression.render [.output node.outputVariable] = node.outputVariable := by
        simp [Expression.render, Fragment.render]
      rw [hrender]
      exact h.oneLine_outputVariable (List.mem_of_getElem? hnode)
    · exact hfallback
  · rename_i name hbinding
    obtain ⟨p, hp, rfl, -⟩ := hsourced.parameter name hbinding
    exact oneLine_ofText.mpr (oneLine_of_identifier (h.identifier_uniformName hp))
  · rename_i value hbinding
    cases hliteral : Glsl.literal? value with
    | none => exact hfallback
    | some text => exact oneLine_ofText.mpr (Glsl.oneLine_of_literal? hliteral)
  · exact hfallback

end Graph

open CodeBuffer

variable {d : Document} {files : FileTree} {searchPath : SearchPath}

/-! ## Statements -/

/-- A statement is written on a line, at any depth, and the generator declares no uniform there. -/
def Statement.IsWritten (d : Document) (files : FileTree) (searchPath : SearchPath)
    (s : Statement) : Prop :=
  ∀ depth, Emits d files searchPath (linesText depth [s.render]) []

section Statements

variable {s : Statement} {type : ValueType} {text name : String}

theorem IsPlain.isWritten (h : IsPlain s.render) : s.IsWritten d files searchPath :=
  fun _ => .plainLine h

theorem isPlain_comment (htext : OneLine text) : IsPlain (Statement.comment text).render :=
  .of_front (oneLine_append.mpr ⟨by decide, htext⟩) (by decide)

theorem isPlain_assign (htarget : (text.toList.head?.any fun c =>
    c ≠ ' ' && c ≠ 'u' && c ≠ 's') = true) (hline : OneLine text) {e : Expression}
    (he : OneLine e.render) : IsPlain (Statement.assign text e).render := by
  have hrender : (Statement.assign text e).render = text ++ (" = " ++ e.render ++ ";") := by
    simp only [← String.append_assoc]
    rfl
  rw [hrender]
  refine .of_front ?_ htarget
  simp only [oneLine_append]
  exact ⟨hline, ⟨by decide, he⟩, by decide⟩

theorem isPlain_declare (htype : Glsl.typeName? type = some text) (hname : OneLine name)
    {value? : Option Expression} (hvalue : ∀ e ∈ value?, OneLine e.render) :
    IsPlain (Statement.declare text name value?).render := by
  cases value? with
  | none =>
    have hrender : (Statement.declare text name none).render = text ++ " " ++ (name ++ ";") :=
      String.append_assoc
    rw [hrender]
    exact .of_type htype (oneLine_append.mpr ⟨hname, by decide⟩)
  | some e =>
    have hrender : (Statement.declare text name (some e)).render =
        text ++ " " ++ (name ++ " = " ++ e.render ++ ";") := by
      simp only [← String.append_assoc]
      rfl
    rw [hrender]
    refine .of_type htype ?_
    simp only [oneLine_append]
    exact ⟨⟨⟨hname, by decide⟩, hvalue e rfl⟩, by decide⟩

/-- A declaration whose value is code of the document. -/
theorem declare_isWritten (htype : Glsl.typeName? type = some text) (hname : OneLine name)
    {e : Expression} (he : d.Supplies e.render) :
    (Statement.declare text name (some e)).IsWritten d files searchPath := by
  intro depth
  have hplain : IsPlain (text ++ " " ++ name ++ " = " ++ ";") := by
    have hsplit : text ++ " " ++ name ++ " = " ++ ";" = text ++ " " ++ (name ++ " = " ++ ";") := by
      simp only [String.append_assoc]
    rw [hsplit]
    refine .of_type htype ?_
    simp only [oneLine_append]
    exact ⟨⟨hname, by decide⟩, by decide⟩
  exact .quotingLine he hplain

/-- A call of a function of the document. -/
theorem call_isWritten {function : String} {arguments : List Expression}
    (hfunction : d.Supplies function) (harguments : ∀ e ∈ arguments, OneLine e.render) :
    (Statement.call function arguments).IsWritten d files searchPath := by
  intro depth
  have hjoined : OneLine (Text.joinWith ", " (arguments.map Expression.render)) :=
    oneLine_joinWith (by decide) (List.forall_mem_map.mpr harguments)
  have hplain : IsPlain ("" ++ ("(" ++ (Text.joinWith ", " (arguments.map Expression.render) ++
      ");"))) := by
    rw [String.empty_append]
    refine .of_front ?_ (by decide)
    simp only [oneLine_append]
    exact ⟨by decide, hjoined, by decide⟩
  have hquoted : Emits d files searchPath (linesText depth ["" ++ function ++ ("(" ++
      (Text.joinWith ", " (arguments.map Expression.render) ++ ");"))]) [] :=
    .quotingLine hfunction hplain
  have hrender : (Statement.call function arguments).render = "" ++ function ++ ("(" ++
      (Text.joinWith ", " (arguments.map Expression.render) ++ ");")) := by
    simp only [Statement.render, String.empty_append, String.append_assoc]
  exact hrender ▸ hquoted

end Statements

/-! ## The statements of nodes -/

/-- What the statements of a node are made of: names and expressions of one line, and code that is of
the document. -/
structure ShaderNode.Writable (d : Document) (g : ShaderGraph) (n : ShaderNode) : Prop where
  name : OneLine n.name
  input : ∀ input ∈ n.inputs, OneLine (g.inputExpression input).render
  code : ∀ code, n.code? = some code → code.ComesFrom d

section Nodes

variable {g : ShaderGraph} {n : ShaderNode} {statements : List Statement}

theorem ShaderNode.Writable.outputVariable (h : n.Writable d g) : OneLine n.outputVariable :=
  oneLine_append.mpr ⟨h.name, by decide⟩

theorem isPlain_default (h : n.Writable d g) : IsPlain n.defaultStatement.render := by
  unfold ShaderNode.defaultStatement
  split
  · rename_i htype hliteral
    refine isPlain_declare htype h.outputVariable fun e he => ?_
    obtain rfl := Option.some.inj he
    exact oneLine_ofText.mpr (Glsl.oneLine_of_defaultLiteral? hliteral)
  · exact isPlain_comment (oneLine_append.mpr ⟨h.name, by decide⟩)

theorem oneLine_texcoord (index : Int32) :
    OneLine (VertexAttribute.texcoord index) ∧ OneLine (Varying.texcoord index) := by
  have hindex := oneLine_ofList (Number.newline_not_mem_int32Text index)
  exact ⟨oneLine_append.mpr ⟨by decide, hindex⟩, oneLine_append.mpr ⟨by decide, hindex⟩⟩

/-- What a node needs of the geometry are names and values of one line. -/
theorem needs_oneLine {need : GeometryNeeds} (h : n.geometryNeeds? = some need) :
    OneLine need.varying.name ∧ OneLine need.value := by
  rcases ShaderNode.geometryNeeds?_cases h with ⟨index, -, rfl⟩ | ⟨-, property, rfl⟩
  · exact ⟨(oneLine_texcoord index).2, (oneLine_texcoord index).1⟩
  · have hvector : ∀ name ∈ Varying.vectors, OneLine name := by decide
    refine ⟨hvector _ (surfaceNeeds_vectors n property).2.1, ?_⟩
    cases property with
    | position => exact (by decide : OneLine "hPositionWorld.xyz")
    | normal =>
      exact (by decide : OneLine (worldDirection Uniforms.worldInverseTranspose
        VertexAttribute.normal))
    | tangent =>
      exact (by decide : OneLine (worldDirection Uniforms.worldMatrix VertexAttribute.tangent))

theorem isPlain_read (h : n.Writable d g) {need : GeometryNeeds}
    (hneed : n.geometryNeeds? = some need) : IsPlain need.read.render := by
  rcases ShaderNode.geometryNeeds?_cases hneed with ⟨index, -, rfl⟩ | ⟨-, property, rfl⟩
  · obtain ⟨type, htype⟩ : ∃ type, Glsl.typeName? type =
        some ((Glsl.typeName? n.type).getD "vec2") := by
      cases htype : Glsl.typeName? n.type with
      | none => exact ⟨.tuple .vector2, rfl⟩
      | some text => exact ⟨n.type, htype⟩
    refine isPlain_declare htype h.outputVariable fun e he => ?_
    obtain rfl := Option.some.inj he
    exact oneLine_ofText.mpr (oneLine_append.mpr ⟨by decide, (oneLine_texcoord index).2⟩)
  · have htype : Glsl.typeName? (.tuple .vector3) = some "vec3" := rfl
    cases property <;>
    · refine isPlain_declare htype h.outputVariable fun e he => ?_
      obtain rfl := Option.some.inj he
      exact oneLine_ofText.mpr (by decide)

/-- The statements of a node are lines of the generator, but for code of the document. -/
theorem statementsOf_isWritten (h : n.Writable d g)
    (hstatements : g.statementsOf n = .ok statements) :
    ∀ s ∈ statements, s.IsWritten d files searchPath := by
  cases statementsOf_cases hstatements with
  | default _ => exact List.forall_mem_singleton.mpr (isPlain_default h).isWritten
  | @read reader hcode =>
    have hneed : n.geometryNeeds? = some (reader.needs n) := by
      rw [ShaderNode.geometryNeeds?, hcode]
    exact List.forall_mem_singleton.mpr (isPlain_read h hneed).isWritten
  | untyped _ _ =>
    exact List.forall_mem_singleton.mpr
      (isPlain_comment (oneLine_append.mpr ⟨h.name, by decide⟩)).isWritten
  | inline hcode htype hexpand =>
    obtain ⟨record, hrecord, -, -, hinline⟩ := (h.code _ hcode).exists_record
    refine List.forall_mem_singleton.mpr (declare_isWritten htype h.outputVariable ?_)
    refine .code hrecord hinline (fun name inserted hinserted => ?_) hexpand
    obtain ⟨input, hinput, rfl⟩ := Option.map_eq_some_iff.mp hinserted
    exact h.input input (List.mem_of_find?_eq_some hinput)
  | call hcode htype =>
    obtain ⟨record, hrecord, -, hfunction, -⟩ := (h.code _ hcode).exists_record
    refine List.forall_mem_cons.mpr ⟨IsPlain.isWritten ?_, List.forall_mem_singleton.mpr ?_⟩
    · refine isPlain_declare htype h.outputVariable fun e he => ?_
      obtain ⟨literal, hliteral, rfl⟩ := Option.map_eq_some_iff.mp he
      exact oneLine_ofText.mpr (Glsl.oneLine_of_defaultLiteral? hliteral)
    · refine call_isWritten (.function hrecord hfunction) ?_
      refine List.forall_mem_append.mpr ⟨fun e he => ?_, List.forall_mem_singleton.mpr
        (oneLine_ofText.mpr h.outputVariable)⟩
      obtain ⟨input, hinput, rfl⟩ := List.mem_map.mp he
      exact h.input input (List.mem_filter.mp hinput).1

theorem isPlain_assignColor {before output after : String} (hbefore : OneLine before)
    (houtput : OneLine output) (hafter : OneLine after) :
    IsPlain (assignColor before output after).render := by
  refine isPlain_assign (by decide) (by decide) ?_
  simp only [Expression.render, List.map_cons, List.map_nil, String.join_cons, String.join_nil,
    Fragment.render, oneLine_append]
  exact ⟨hbefore, houtput, hafter, by decide⟩

theorem finalStatements?_isPlain {type : ValueType} {output : String} {transparency : Bool}
    (houtput : OneLine output) (h : finalStatements? type output transparency = some statements) :
    ∀ s ∈ statements, IsPlain s.render := by
  have hassign {before after : String} (hbefore : OneLine before) (hafter : OneLine after) :
      ∀ s ∈ [assignColor before output after], IsPlain s.render :=
    List.forall_mem_singleton.mpr (isPlain_assignColor hbefore houtput hafter)
  have hsurface : ∀ s ∈ surfaceStatements output transparency, IsPlain s.render := by
    unfold surfaceStatements
    split
    · refine List.forall_mem_cons.mpr ⟨?_, hassign (by decide) (by decide)⟩
      have htype : Glsl.typeName? .float = some "float" := rfl
      refine isPlain_declare htype (by decide) fun e he => ?_
      obtain rfl := Option.some.inj he
      simp only [Expression.render, List.map_cons, List.map_nil, String.join_cons, String.join_nil,
        Fragment.render, oneLine_append]
      exact ⟨by decide, houtput, by decide, by decide⟩
    · exact hassign (by decide) (by decide)
  unfold finalStatements? at h
  split at h
  case h_11 => cases h
  all_goals
    obtain rfl := Option.some.inj h
    first
    | exact hsurface
    | exact hassign (by decide) (by decide)

end Nodes

end MaterialViewer
