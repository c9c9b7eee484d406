import MaterialViewer.Proofs.Shader.Sources
import MaterialViewer.Proofs.Text.Split

/-!
# Proofs: what a generator writes

A source is written piece by piece: lines of the generator, lines with a text of the document in
them, and files that are taken over. The document may supply anything for the code, the function and
the file of an implementation, line breaks included, so what the generator declares can only be read
in what it writes itself.

A line of the generator declares a uniform if its first word is `uniform`. Here lines are read one by
one, and `Emits` tells a text by the uniforms that are read in its pieces, so that sources can be put
together of sections.
-/

namespace MaterialViewer

open CodeBuffer

/-! ## Reading lines -/

/-- A text without line breaks. -/
def OneLine (text : String) : Prop := '\n' ∉ text.toList

instance (text : String) : Decidable (OneLine text) := inferInstanceAs (Decidable (¬ _))

@[simp] theorem oneLine_append {front back : String} :
    OneLine (front ++ back) ↔ OneLine front ∧ OneLine back := by
  simp [OneLine, String.toList_append]

theorem oneLine_indentation (depth : Nat) : OneLine (indentation depth) := by
  rw [OneLine, indentation, String.toList_ofList]
  exact fun hc => absurd (List.eq_of_mem_replicate hc) (by decide)

/-- The lines of a text. -/
def linesOf (text : String) : List String := (Text.splitOn '\n' text.toList).map String.ofList

theorem OneLine.linesOf_eq {text : String} (h : OneLine text) : linesOf text = [text] := by
  rw [linesOf, Text.splitOn_of_not_mem h, List.map_singleton, String.ofList_toList]

theorem linesOf_append (front back : String) :
    linesOf (front ++ "\n" ++ back) = linesOf front ++ linesOf back := by
  have hlist : (front ++ "\n" ++ back).toList = front.toList ++ '\n' :: back.toList := by
    simp [String.toList_append]
  rw [linesOf, hlist, Text.splitOn_append_splitOn, List.map_append, linesOf, linesOf]

theorem mem_linesOf_linesText {depth : Nat} {text back : String} {texts : List String}
    (h : text ∈ texts) (hline : OneLine text) :
    indentation depth ++ text ∈ linesOf (linesText depth texts ++ back) := by
  induction texts with
  | nil => cases h
  | cons head texts ih =>
    rw [linesText_cons, String.append_assoc, linesOf_append, List.mem_append]
    rcases List.mem_cons.mp h with rfl | h
    · have hindented : OneLine (indentation depth ++ text) :=
        oneLine_append.mpr ⟨oneLine_indentation depth, hline⟩
      exact .inl (hindented.linesOf_eq ▸ List.mem_singleton_self _)
    · exact .inr (ih h)

/-- A variable as code declares it. -/
structure DeclaredVariable where
  /-- The type in shaders. -/
  type : String
  /-- The name. -/
  name : String
  /-- The code of the initial value. -/
  initializer? : Option String
deriving DecidableEq

/-- The initial value in the code after a name, without the semicolon at its end. -/
def initializerOf? (code : List Char) : Option String :=
  if " = ".toList.isPrefixOf code then some (String.ofList (code.drop 3).dropLast) else none

/-- The variable that code declares: a type, a blank, a name and the rest. -/
def declarationOf (code : List Char) : DeclaredVariable :=
  let rest := (code.dropWhile (· ≠ ' ')).drop 1
  { type := String.ofList (code.takeWhile (· ≠ ' '))
    name := String.ofList (rest.takeWhile Glsl.isIdentifierChar)
    initializer? := initializerOf? (rest.dropWhile Glsl.isIdentifierChar) }

/-- The code of a line without the blanks in front of it. -/
def codeOf (line : String) : List Char := line.toList.dropWhile (· = ' ')

/-- The first word of code. -/
def wordOf (code : List Char) : List Char := code.takeWhile (· ≠ ' ')

/-- The uniform that a line declares. -/
def uniformOf? (line : String) : Option DeclaredVariable :=
  let code := codeOf line
  if wordOf code = "uniform".toList then
    some (declarationOf ((code.dropWhile (· ≠ ' ')).drop 1))
  else none

/-- The line that opens the data of lights. -/
def LightKinds.opening : String := "struct LightData"

/-- The fields of the data of lights: the lines between the braces after the line that opens it. -/
def lightFieldsOf (lines : List String) : List DeclaredVariable :=
  (((lines.dropWhile (· ≠ LightKinds.opening)).drop 2).takeWhile (· ≠ "\x7d;")).map fun line =>
    declarationOf (codeOf line)

/-- The variable as code that gives it an initial value declares it; none if shaders do not know its
type. -/
def ShaderVariable.inCode? (v : ShaderVariable) (initializer? : Option String) :
    Option DeclaredVariable :=
  (Glsl.typeName? v.type).map fun type => { type, name := v.name, initializer? }

section Lines

variable {line type name : String} {rest : List Char}

@[simp] theorem codeOf_indentation (depth : Nat) (line : String) :
    codeOf (indentation depth ++ line) = codeOf line := by
  rw [codeOf, indentation, String.toList_append, String.toList_ofList]
  exact List.dropWhile_append_of_pos fun c hc => by simp [List.eq_of_mem_replicate hc]

theorem uniformOf?_indentation (depth : Nat) (line : String) :
    uniformOf? (indentation depth ++ line) = uniformOf? line := by
  simp only [uniformOf?, codeOf_indentation]

theorem indentation_ne_opening (depth : Nat) (h : line ≠ LightKinds.opening) :
    indentation depth ++ line ≠ LightKinds.opening := by
  cases depth with
  | zero => exact h
  | succ depth =>
    intro heq
    have hhead := congrArg (fun line : String => line.toList.head?) heq
    simp [indentation, LightKinds.opening, String.toList_append, Nat.mul_succ,
      List.replicate_succ] at hhead

theorem declarationOf_eq (htype : ' ' ∉ type.toList)
    (hname : ∀ c ∈ name.toList, Glsl.isIdentifierChar c = true)
    (hrest : ∀ c ∈ rest.head?, Glsl.isIdentifierChar c = false) :
    declarationOf (type.toList ++ ' ' :: (name.toList ++ rest)) =
      ⟨type, name, initializerOf? rest⟩ := by
  have hword : ∀ c ∈ type.toList, decide (c ≠ ' ') = true := fun c hc =>
    decide_eq_true fun heq => htype (heq ▸ hc)
  have hnone : rest.takeWhile Glsl.isIdentifierChar = [] ∧
      rest.dropWhile Glsl.isIdentifierChar = rest := by
    cases rest with
    | nil => exact ⟨rfl, rfl⟩
    | cons c rest => simp [hrest c rfl]
  rw [declarationOf, List.takeWhile_append_of_pos hword, List.dropWhile_append_of_pos hword]
  simp only [ne_eq, not_true_eq_false, decide_false, Bool.false_eq_true, not_false_eq_true,
    List.takeWhile_cons_of_neg, List.dropWhile_cons_of_neg, List.append_nil, List.drop_succ_cons,
    List.drop_zero, List.takeWhile_append_of_pos hname, List.dropWhile_append_of_pos hname, hnone,
    String.ofList_toList]

/-- A line with the word `uniform` in front declares what follows. -/
theorem uniformOf?_declaration (text : String) :
    uniformOf? ("uniform " ++ text) = some (declarationOf text.toList) := by
  have hcode : codeOf ("uniform " ++ text) = "uniform".toList ++ ' ' :: text.toList := by
    rw [codeOf, String.toList_append]
    rfl
  have hword : ∀ c ∈ "uniform".toList, decide (c ≠ ' ') = true := List.all_eq_true.mp (by decide)
  simp only [uniformOf?, hcode, wordOf, List.takeWhile_append_of_pos hword,
    List.dropWhile_append_of_pos hword]
  simp

/-! ## Plain lines -/

/-- A line that neither declares a uniform nor opens the data of lights. -/
structure IsPlain (line : String) : Prop where
  oneLine : OneLine line
  uniform : uniformOf? line = none
  opening : line ≠ LightKinds.opening

instance (line : String) : Decidable (IsPlain line) :=
  decidable_of_iff (OneLine line ∧ uniformOf? line = none ∧ line ≠ LightKinds.opening)
    ⟨fun ⟨h₁, h₂, h₃⟩ => ⟨h₁, h₂, h₃⟩, fun ⟨h₁, h₂, h₃⟩ => ⟨h₁, h₂, h₃⟩⟩

theorem IsPlain.indent (h : IsPlain line) (depth : Nat) : IsPlain (indentation depth ++ line) :=
  ⟨oneLine_append.mpr ⟨oneLine_indentation depth, h.oneLine⟩,
    (uniformOf?_indentation depth line).trans h.uniform, indentation_ne_opening depth h.opening⟩

/-- A line with a word in front begins with its code. -/
theorem codeOf_eq (h : wordOf line.toList ≠ []) : codeOf line = line.toList := by
  unfold codeOf
  cases hlist : line.toList with
  | nil => rfl
  | cons c cs =>
    have hc : c ≠ ' ' := by
      rintro rfl
      rw [hlist] at h
      exact h rfl
    simp [hc]

/-- A line is plain if it begins with a word that is not one of the two that matter. -/
theorem IsPlain.of_word (hline : OneLine line)
    (hword : wordOf line.toList ∉ [[], "uniform".toList, "struct".toList]) : IsPlain line := by
  have hcode : codeOf line = line.toList := codeOf_eq fun heq => hword (heq ▸ List.mem_cons_self)
  refine ⟨hline, ?_, ?_⟩
  · rw [uniformOf?, hcode]
    exact if_neg fun heq => hword (by rw [heq]; decide)
  · rintro rfl
    exact hword (by decide)

/-- A line is plain if it begins with a character with which none of these words begins. -/
theorem IsPlain.of_front {front rest : String} (hline : OneLine (front ++ rest))
    (hfront : (front.toList.head?.any fun c => c ≠ ' ' && c ≠ 'u' && c ≠ 's') = true) :
    IsPlain (front ++ rest) := by
  refine .of_word hline ?_
  rw [String.toList_append]
  cases hlist : front.toList with
  | nil =>
    rw [hlist] at hfront
    cases hfront
  | cons c cs =>
    obtain ⟨⟨hblank, hu⟩, hs⟩ : (c ≠ ' ' ∧ c ≠ 'u') ∧ c ≠ 's' := by simpa [hlist] using hfront
    simp [wordOf, hblank, hu, hs]

end Lines

/-! ## Pieces -/

/-- A piece of a source. -/
inductive Emitted
  /-- A line of the generator. -/
  | line (text : String)
  /-- A line of the generator around a text that the document supplies. -/
  | quoting (front supplied back : String)
  /-- A file that is taken over. -/
  | file (text : String)

/-- The text of a piece, with a line break at its end. -/
def Emitted.text : Emitted → String
  | line text => text ++ "\n"
  | quoting front supplied back => front ++ supplied ++ back ++ "\n"
  | file text => blockText text

/-- What the generator writes of a piece itself. -/
def Emitted.own? : Emitted → Option String
  | line text => some text
  | quoting front _ back => some (front ++ back)
  | file _ => none

/-- The text of some pieces. -/
def textOf (es : List Emitted) : String := String.join (es.map Emitted.text)

/-- The lines that the generator writes, without what the document supplies. -/
def ownLines (es : List Emitted) : List String := es.filterMap Emitted.own?

/-- The uniforms that the generator declares. -/
def uniformsOf (es : List Emitted) : List DeclaredVariable := (ownLines es).filterMap uniformOf?

/-- A text that an implementation of a document supplies: the name of its file or of its function, or
its code, with expressions of one line for the placeholders. -/
inductive Document.Supplies (d : Document) : String → Prop
  | file {record : Element} {text : String} (hrecord : record ∈ d.implementations)
      (hfile : record.filled? "file" = some text) : Supplies d text
  | function {record : Element} {text : String} (hrecord : record ∈ d.implementations)
      (hfunction : record.filled? "function" = some text) : Supplies d text
  | code {record : Element} {text : String} {input? : String → Option Expression} {e : Expression}
      (hrecord : record ∈ d.implementations) (hcode : record.filled? "sourcecode" = some text)
      (hinput : ∀ name inserted, input? name = some inserted → OneLine inserted.render)
      (hexpand : Template.expand input? text.toList = .ok e) : Supplies d e.render

/-- The text of a file that an implementation of a document names. -/
def Document.TakesOver (d : Document) (files : FileTree) (searchPath : SearchPath)
    (text : String) : Prop :=
  ∃ record ∈ d.implementations, ∃ file path, record.filled? "file" = some file ∧
    searchPath.findExisting? files ⟨file⟩ = some path ∧ files.readText? path = some text

/-- The generator writes lines without line breaks in them. All else comes from the document and from
its files. -/
def Emitted.IsGenuine (d : Document) (files : FileTree) (searchPath : SearchPath) : Emitted → Prop
  | line text => OneLine text
  | quoting front supplied back => OneLine front ∧ OneLine back ∧ d.Supplies supplied
  | file text => d.TakesOver files searchPath text

/-- A text is written in these pieces. -/
structure WrittenAs (d : Document) (files : FileTree) (searchPath : SearchPath) (text : String)
    (es : List Emitted) : Prop where
  text_eq : textOf es = text
  genuine : ∀ e ∈ es, e.IsGenuine d files searchPath

/-- A text is written in pieces that declare these uniforms and do not open the data of lights. -/
def Emits (d : Document) (files : FileTree) (searchPath : SearchPath) (text : String)
    (uniforms : List DeclaredVariable) : Prop :=
  ∃ es, WrittenAs d files searchPath text es ∧ uniformsOf es = uniforms ∧
    LightKinds.opening ∉ ownLines es

section Pieces

variable {d : Document} {files : FileTree} {searchPath : SearchPath}
  {text front back : String} {depth : Nat} {es es' : List Emitted}
  {uniforms uniforms' : List DeclaredVariable} {b : CodeBuffer}

theorem ownLines_append (es es' : List Emitted) :
    ownLines (es ++ es') = ownLines es ++ ownLines es' := List.filterMap_append

theorem uniformsOf_append (es es' : List Emitted) :
    uniformsOf (es ++ es') = uniformsOf es ++ uniformsOf es' := by
  rw [uniformsOf, ownLines_append, List.filterMap_append, uniformsOf, uniformsOf]

/-- Without implementations there are only lines of the generator. -/
theorem Emitted.IsGenuine.exists_line {e : Emitted} (h : e.IsGenuine d files searchPath)
    (hnone : d.implementations = []) : ∃ line, e = .line line := by
  have hrecord : ∀ record, record ∉ d.implementations := by simp [hnone]
  rcases e with line | ⟨front, supplied, back⟩ | text
  · exact ⟨line, rfl⟩
  · obtain ⟨-, -, ⟨hmem, -⟩ | ⟨hmem, -⟩ | ⟨hmem, -⟩⟩ := h <;> exact absurd hmem (hrecord _)
  · obtain ⟨record, hmem, -⟩ := h
    exact absurd hmem (hrecord record)

theorem WrittenAs.append (h : WrittenAs d files searchPath front es)
    (h' : WrittenAs d files searchPath back es') :
    WrittenAs d files searchPath (front ++ back) (es ++ es') := by
  refine ⟨?_, List.forall_mem_append.mpr ⟨h.genuine, h'.genuine⟩⟩
  rw [textOf, List.map_append, String.join_append, ← textOf, ← textOf, h.text_eq, h'.text_eq]

/-- In a text that consists of lines of the generator, these are read. -/
theorem WrittenAs.uniforms_linesOf (h : WrittenAs d files searchPath text es)
    (hlines : ∀ e ∈ es, ∃ line, e = .line line) :
    (linesOf text).filterMap uniformOf? = uniformsOf es := by
  obtain ⟨rfl, hgenuine⟩ := h
  induction es with
  | nil => decide
  | cons e es ih =>
    obtain ⟨⟨line, rfl⟩, hrest⟩ := List.forall_mem_cons.mp hlines
    obtain ⟨hline, hgenuine⟩ := List.forall_mem_cons.mp hgenuine
    have htext : textOf (.line line :: es) = line ++ "\n" ++ textOf es := by
      rw [textOf, List.map_cons, String.join_cons, textOf, Emitted.text]
    have huniforms : uniformsOf (.line line :: es) = [line].filterMap uniformOf? ++ uniformsOf es :=
      uniformsOf_append [.line line] es
    rw [htext, linesOf_append, OneLine.linesOf_eq hline, List.filterMap_append, ih hrest hgenuine,
      huniforms]

theorem WrittenAs.piece {e : Emitted} (h : e.IsGenuine d files searchPath) :
    WrittenAs d files searchPath e.text [e] :=
  ⟨by simp [textOf], List.forall_mem_singleton.mpr h⟩

theorem Emits.nil : Emits d files searchPath "" [] :=
  ⟨[], ⟨rfl, List.forall_mem_nil _⟩, rfl, List.not_mem_nil⟩

theorem Emits.append (h : Emits d files searchPath front uniforms)
    (h' : Emits d files searchPath back uniforms') :
    Emits d files searchPath (front ++ back) (uniforms ++ uniforms') := by
  obtain ⟨es, hes, rfl, hopening⟩ := h
  obtain ⟨es', hes', rfl, hopening'⟩ := h'
  refine ⟨es ++ es', hes.append hes', uniformsOf_append es es', ?_⟩
  rw [ownLines_append, List.mem_append]
  exact not_or.mpr ⟨hopening, hopening'⟩

/-- What is written after a text adds no uniforms if it declares none. -/
theorem Emits.append_plain (h : Emits d files searchPath front uniforms)
    (h' : Emits d files searchPath back []) :
    Emits d files searchPath (front ++ back) uniforms := by
  simpa using h.append h'

theorem Emits.piece {e : Emitted} (h : e.IsGenuine d files searchPath)
    (hopening : LightKinds.opening ∉ e.own?) :
    Emits d files searchPath e.text (e.own?.bind uniformOf?).toList := by
  refine ⟨[e], .piece h, ?_, ?_⟩
  · cases hown : e.own? with
    | none => simp [uniformsOf, ownLines, hown]
    | some line => cases huniform : uniformOf? line <;> simp [uniformsOf, ownLines, hown, huniform]
  · cases hown : e.own? with
    | none => simp [ownLines, hown]
    | some line =>
      rw [hown] at hopening
      simpa [ownLines, hown, eq_comm] using hopening

/-- A line of the generator. -/
theorem Emits.line {line : String} (hline : OneLine line)
    (hopening : line ≠ LightKinds.opening) :
    Emits d files searchPath (line ++ "\n") (uniformOf? line).toList :=
  .piece (e := .line line) hline fun heq => hopening (Option.some.inj heq)

theorem Emits.plain {line : String} (h : IsPlain line) :
    Emits d files searchPath (line ++ "\n") [] := by
  simpa [h.uniform] using Emits.line h.oneLine h.opening

/-- A line that is plain but for a text that the document supplies. -/
theorem Emits.quoting {supplied : String} (hsupplied : d.Supplies supplied)
    (hplain : IsPlain (front ++ back)) :
    Emits d files searchPath (front ++ supplied ++ back ++ "\n") [] := by
  obtain ⟨hfront, hback⟩ := oneLine_append.mp hplain.oneLine
  have h : Emits d files searchPath (front ++ supplied ++ back ++ "\n")
      (uniformOf? (front ++ back)).toList :=
    .piece (e := .quoting front supplied back) ⟨hfront, hback, hsupplied⟩
      fun heq => hplain.opening (Option.some.inj heq)
  rwa [hplain.uniform] at h

theorem Emits.file (h : d.TakesOver files searchPath text) :
    Emits d files searchPath (blockText text) [] :=
  .piece (e := .file text) h nofun

/-! ## Lines of buffers -/

theorem Emits.lines {texts : List String}
    (h : ∀ text ∈ texts, OneLine text ∧ text ≠ LightKinds.opening) :
    Emits d files searchPath (linesText depth texts) (texts.filterMap uniformOf?) := by
  induction texts with
  | nil => exact .nil
  | cons text texts ih =>
    obtain ⟨⟨hline, hopening⟩, hrest⟩ := List.forall_mem_cons.mp h
    have hindented : OneLine (indentation depth ++ text) :=
      oneLine_append.mpr ⟨oneLine_indentation depth, hline⟩
    have hfirst : Emits d files searchPath (indentation depth ++ text ++ "\n")
        (uniformOf? text).toList :=
      uniformOf?_indentation depth text ▸ .line hindented (indentation_ne_opening depth hopening)
    have huniforms : (text :: texts).filterMap uniformOf? =
        (uniformOf? text).toList ++ texts.filterMap uniformOf? := by
      cases huniform : uniformOf? text <;> simp [huniform]
    rw [linesText_cons, huniforms]
    exact hfirst.append (ih hrest)

theorem Emits.plainLines {texts : List String} (h : ∀ text ∈ texts, IsPlain text) :
    Emits d files searchPath (linesText depth texts) [] := by
  have hnone : texts.filterMap uniformOf? = [] :=
    List.filterMap_eq_nil_iff.mpr fun text htext => (h text htext).uniform
  exact hnone ▸ Emits.lines fun text htext => ⟨(h text htext).oneLine, (h text htext).opening⟩

theorem Emits.plainLine (h : IsPlain text) : Emits d files searchPath (linesText depth [text]) [] :=
  .plainLines (List.forall_mem_singleton.mpr h)

theorem Emits.blank (h : Emits d files searchPath b.code uniforms) :
    Emits d files searchPath b.blank.code uniforms :=
  h.append_plain (.plain (by decide : IsPlain ""))

theorem Emits.bufferLines {texts : List String} (h : Emits d files searchPath b.code uniforms)
    (htexts : ∀ text ∈ texts, IsPlain text) :
    Emits d files searchPath (b.lines texts).code uniforms := by
  rw [lines_code_eq]
  exact h.append_plain (.plainLines htexts)

theorem Emits.bufferLine (h : Emits d files searchPath b.code uniforms) (htext : IsPlain text) :
    Emits d files searchPath (b.line text).code uniforms := by
  rw [line_code]
  exact h.append_plain (.plainLine htext)

theorem Emits.openScope (h : Emits d files searchPath b.code uniforms) :
    Emits d files searchPath b.openScope.code uniforms :=
  h.bufferLine (by decide)

theorem Emits.closeScope (h : Emits d files searchPath b.code uniforms)
    (htext : IsPlain ("\x7d" ++ text)) :
    Emits d files searchPath (b.closeScope text).code uniforms := by
  rw [closeScope_code]
  exact h.append_plain (.plainLine htext)

/-- A line that is plain but for a text that the document supplies, at any depth. -/
theorem Emits.quotingLine {supplied : String} (hsupplied : d.Supplies supplied)
    (hplain : IsPlain (front ++ back)) :
    Emits d files searchPath (linesText depth [front ++ supplied ++ back]) [] := by
  have hindented : IsPlain (indentation depth ++ front ++ back) := by
    rw [String.append_assoc]
    exact hplain.indent depth
  have hquoting : Emits d files searchPath
      (indentation depth ++ front ++ supplied ++ back ++ "\n") [] := .quoting hsupplied hindented
  rw [linesText_cons, linesText, List.map_nil, String.join_nil, String.append_empty]
  simpa only [String.append_assoc] using hquoting

end Pieces

end MaterialViewer
