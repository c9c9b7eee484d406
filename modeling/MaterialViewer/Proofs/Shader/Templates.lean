import MaterialViewer.Proofs.Text.Split
import MaterialViewer.Shader.Generate

/-!
# Proofs: templates

What the code of an implementation stands for. `Template.Expands` tells it for every text, by the
first places of the braces. A text put together from pieces, each a literal text before a
placeholder, stands for the literal texts with the expressions of the inputs between them.

A placeholder begins with the first two braces in a row. A literal text that ends with a brace is
therefore not apart from a placeholder behind it: its brace opens the placeholder, and the second
brace of the placeholder becomes a part of the name.
-/

namespace MaterialViewer

theorem Expression.render_append (a b : Expression) : render (a ++ b) = render a ++ render b := by
  rw [render, List.map_append, String.join_append, ← render, ← render]

theorem Expression.render_cons_text (s : String) (e : Expression) :
    render (.text s :: e) = s ++ render e := by
  rw [render, List.map_cons, String.join_cons, ← render, Fragment.render]

namespace Template

variable {input? : String → Option Expression}

/-! ## Every text -/

/-- What a text stands for, told by its first placeholder: no two braces in a row end before those
that open it, and none before those that close it. -/
inductive Expands (input? : String → Option Expression) :
    List Char → Except SourceFault Expression → Prop
  | literal {cs : List Char} (hplain : ¬ opening <:+: cs) :
      Expands input? cs (.ok (.ofText (String.ofList cs)))
  | unterminated {front rest : List Char} (hopen : ¬ opening <:+: front ++ opening.dropLast)
      (hclose : ¬ closing <:+: rest) :
      Expands input? (front ++ (opening ++ rest)) (.error .unterminatedPlaceholder)
  | unknown {front body rest : List Char} (hopen : ¬ opening <:+: front ++ opening.dropLast)
      (hclose : ¬ closing <:+: body ++ closing.dropLast)
      (hinput : input? (String.ofList (Text.trimWhile Text.isBlank body)) = none) :
      Expands input? (front ++ (opening ++ (body ++ (closing ++ rest))))
        (.error (.unknownInput (String.ofList (Text.trimWhile Text.isBlank body))))
  | known {front body rest : List Char} {inserted : Expression}
      {result : Except SourceFault Expression}
      (hopen : ¬ opening <:+: front ++ opening.dropLast)
      (hclose : ¬ closing <:+: body ++ closing.dropLast)
      (hinput : input? (String.ofList (Text.trimWhile Text.isBlank body)) = some inserted)
      (hrest : Expands input? rest result) :
      Expands input? (front ++ (opening ++ (body ++ (closing ++ rest))))
        (result.map fun tail => .text (String.ofList front) :: (inserted ++ tail))

theorem splitAtFirst?_opening {cs front back : List Char} :
    Text.splitAtFirst? opening cs = some (front, back) ↔
      cs = front ++ (opening ++ back) ∧ ¬ opening <:+: front ++ opening.dropLast :=
  Text.splitAtFirst?_eq_some_iff (List.cons_ne_nil _ _)

theorem splitAtFirst?_closing {cs front back : List Char} :
    Text.splitAtFirst? closing cs = some (front, back) ↔
      cs = front ++ (closing ++ back) ∧ ¬ closing <:+: front ++ closing.dropLast :=
  Text.splitAtFirst?_eq_some_iff (List.cons_ne_nil _ _)

/-- Every text is expanded to something. -/
theorem expand_expands (input? : String → Option Expression) (cs : List Char) :
    Expands input? cs (expand input? cs) := by
  fun_induction expand input? cs with
  | case1 cs hnone => exact .literal (Text.splitAtFirst?_eq_none_iff.mp hnone)
  | case2 cs front rest hopen hclose =>
    obtain ⟨rfl, hfirst⟩ := splitAtFirst?_opening.mp hopen
    exact .unterminated hfirst (Text.splitAtFirst?_eq_none_iff.mp hclose)
  | case3 cs front afterOpening hopen body rest hclose name hinput =>
    obtain ⟨rfl, hfirst⟩ := splitAtFirst?_opening.mp hopen
    obtain ⟨rfl, hend⟩ := splitAtFirst?_closing.mp hclose
    exact .unknown hfirst hend hinput
  | case4 cs front afterOpening hopen body rest hclose name inserted hinput ih =>
    obtain ⟨rfl, hfirst⟩ := splitAtFirst?_opening.mp hopen
    obtain ⟨rfl, hend⟩ := splitAtFirst?_closing.mp hclose
    exact .known hfirst hend hinput ih

/-- The next step of the expansion of a text with a placeholder in it. -/
theorem expand_of_placeholder {cs front afterOpening body rest : List Char}
    (hopen : Text.splitAtFirst? opening cs = some (front, afterOpening))
    (hclose : Text.splitAtFirst? closing afterOpening = some (body, rest)) :
    expand input? cs =
      match input? (String.ofList (Text.trimWhile Text.isBlank body)) with
      | none => .error (.unknownInput (String.ofList (Text.trimWhile Text.isBlank body)))
      | some inserted =>
        (expand input? rest).map fun tail => .text (String.ofList front) :: (inserted ++ tail) := by
  rw [expand]
  split
  · simp_all only [reduceCtorEq]
  · rename_i front' after' hopen'
    obtain ⟨rfl, rfl⟩ := Prod.mk.inj (Option.some.inj (hopen.symm.trans hopen'))
    split
    · simp_all only [reduceCtorEq]
    · rename_i body' rest' hclose'
      obtain ⟨rfl, rfl⟩ := Prod.mk.inj (Option.some.inj (hclose.symm.trans hclose'))
      rfl

/-- A text stands for nothing but what it is expanded to. -/
theorem Expands.expand_eq {cs : List Char} {result : Except SourceFault Expression}
    (h : Expands input? cs result) : expand input? cs = result := by
  induction h with
  | literal hplain =>
    have hnone := Text.splitAtFirst?_eq_none_iff.mpr hplain
    rw [expand]
    split <;> simp_all only [reduceCtorEq]
  | @unterminated front rest hopen hclose =>
    have hopen : Text.splitAtFirst? opening (front ++ (opening ++ rest)) = some (front, rest) :=
      splitAtFirst?_opening.mpr ⟨rfl, hopen⟩
    have hclose := Text.splitAtFirst?_eq_none_iff.mpr hclose
    rw [expand]
    split
    · simp_all only [reduceCtorEq]
    · split <;> simp_all
  | unknown hopen hclose hinput =>
    rw [expand_of_placeholder (splitAtFirst?_opening.mpr ⟨rfl, hopen⟩)
      (splitAtFirst?_closing.mpr ⟨rfl, hclose⟩), hinput]
  | known hopen hclose hinput hrest ih =>
    rw [expand_of_placeholder (splitAtFirst?_opening.mpr ⟨rfl, hopen⟩)
      (splitAtFirst?_closing.mpr ⟨rfl, hclose⟩), hinput, ih]

/-! ## Texts made of pieces -/

/-- Text without two opening braces in a row remains so with another brace behind it, unless it ends
with one. -/
theorem plain_append_brace_iff {cs : List Char} :
    ¬ opening <:+: cs ++ opening.dropLast ↔
      ¬ opening <:+: cs ∧ cs.getLast? ≠ some '\x7b' := by
  have hdrop : opening.dropLast = ['\x7b'] := rfl
  rw [hdrop, List.infix_concat_iff, List.suffix_concat_iff, not_or, and_comm]
  refine and_congr_right fun _ => not_congr ?_
  rw [List.getLast?_eq_some_iff]
  constructor
  · rintro (h | ⟨front, hfront, before, hcs⟩)
    · cases h
    · have hfront : ['\x7b'] ++ ['\x7b'] = front ++ ['\x7b'] := hfront
      obtain rfl := List.append_inj_left' hfront rfl
      exact ⟨before, hcs.symm⟩
  · rintro ⟨before, rfl⟩
    exact .inr ⟨['\x7b'], rfl, List.suffix_append _ _⟩

/-- A literal text and the placeholder behind it. -/
structure Piece where
  /-- The literal text. -/
  literal : List Char
  /-- The blanks before the name. -/
  before : List Char
  /-- The name. -/
  name : String
  /-- The blanks behind the name. -/
  after : List Char
  /-- No placeholder begins in the literal text. -/
  literal_plain : ¬ opening <:+: literal
  /-- There are only blanks before the name. -/
  before_blank : ∀ c ∈ before, Text.isBlank c = true
  /-- There are only blanks behind the name. -/
  after_blank : ∀ c ∈ after, Text.isBlank c = true
  /-- No brace is in the name. -/
  name_plain : '\x7b' ∉ name.toList ∧ '\x7d' ∉ name.toList
  /-- The name begins with no blank. -/
  name_first : ∀ c ∈ name.toList.head?, Text.isBlank c = false
  /-- The name ends with no blank. -/
  name_last : ∀ c ∈ name.toList.getLast?, Text.isBlank c = false

namespace Piece

/-- What stands between the braces. -/
def body (p : Piece) : List Char := p.before ++ (p.name.toList ++ p.after)

/-- The text of a piece. -/
def chars (p : Piece) : List Char := p.literal ++ (opening ++ (p.body ++ closing))

/-- Whether the literal text of a piece does not end with a brace, which would be taken for the first
brace of the placeholder. -/
def IsApart (p : Piece) : Prop := p.literal.getLast? ≠ some '\x7b'

instance (p : Piece) : Decidable p.IsApart := inferInstanceAs (Decidable (_ ≠ _))

variable {p : Piece} {rest : List Char}

theorem brace_not_mem_body (p : Piece) : '\x7d' ∉ p.body := by
  have hbrace : Text.isBlank '\x7d' = false := by decide
  have hblank : ∀ cs : List Char, (∀ c ∈ cs, Text.isBlank c = true) → '\x7d' ∉ cs :=
    fun cs h hmem => Bool.false_ne_true (hbrace.symm.trans (h _ hmem))
  simp only [body, List.mem_append, not_or]
  exact ⟨hblank _ p.before_blank, p.name_plain.2, hblank _ p.after_blank⟩

theorem body_plain (p : Piece) : ¬ closing <:+: p.body ++ closing.dropLast := by
  have hsplit : Text.splitAtFirst? closing (p.body ++ (closing ++ [])) = some (p.body, []) :=
    Text.splitAtFirst?_append p.brace_not_mem_body
  exact (splitAtFirst?_closing.mp hsplit).2

/-- The name is read without the blanks around it. -/
theorem trim_body (p : Piece) :
    String.ofList (Text.trimWhile Text.isBlank p.body) = p.name := by
  rw [body, Text.trimWhile_padded p.before_blank p.after_blank p.name_first p.name_last,
    String.ofList_toList]

theorem chars_append (p : Piece) (rest : List Char) :
    p.chars ++ rest = p.literal ++ (opening ++ (p.body ++ (closing ++ rest))) := by
  simp only [chars, List.append_assoc]

/-- A piece stands for its literal text and the expression of its input. -/
theorem expands_known (hp : p.IsApart) {inserted : Expression}
    (hinput : input? p.name = some inserted)
    {result : Except SourceFault Expression} (hrest : Expands input? rest result) :
    Expands input? (p.chars ++ rest)
      (result.map fun tail => .text (String.ofList p.literal) :: (inserted ++ tail)) := by
  rw [chars_append]
  refine .known (plain_append_brace_iff.mpr ⟨p.literal_plain, hp⟩) p.body_plain ?_ hrest
  rw [trim_body, hinput]

/-- A piece whose name is not known is an error, whatever follows. -/
theorem expands_unknown (hp : p.IsApart) (hinput : input? p.name = none) (rest : List Char) :
    Expands input? (p.chars ++ rest) (.error (.unknownInput p.name)) := by
  rw [← p.trim_body] at hinput ⊢
  rw [chars_append]
  exact .unknown (plain_append_brace_iff.mpr ⟨p.literal_plain, hp⟩) p.body_plain hinput

/-- The brace at the end of a literal text opens the placeholder, whose second brace becomes a part of
the name. -/
theorem expands_overlapping {literal : List Char} (hp : p.literal = literal ++ ['\x7b'])
    (hinput : input? (String.ofList (Text.trimWhile Text.isBlank ('\x7b' :: p.body))) = none)
    (rest : List Char) :
    Expands input? (p.chars ++ rest)
      (.error (.unknownInput (String.ofList (Text.trimWhile Text.isBlank ('\x7b' :: p.body))))) := by
  have hchars : p.chars ++ rest =
      literal ++ (opening ++ (('\x7b' :: p.body) ++ (closing ++ rest))) := by
    rw [chars_append, hp]
    simp only [opening, List.append_assoc, List.cons_append, List.nil_append]
  have hplain : ¬ opening <:+: literal ++ opening.dropLast := hp ▸ p.literal_plain
  have hbody : ¬ closing <:+: ('\x7b' :: p.body) ++ closing.dropLast := by
    rw [List.cons_append, List.infix_cons_iff, not_or]
    exact ⟨by simp [closing], p.body_plain⟩
  rw [hchars]
  exact .unknown hplain hbody hinput

end Piece

/-- The text of pieces. -/
def charsOf (pieces : List Piece) : List Char := pieces.flatMap Piece.chars

/-- What pieces stand for, where `value` is the expression of the input of a piece. -/
def valueOf (value : Piece → Expression) (pieces : List Piece) : Expression :=
  pieces.flatMap fun p => .text (String.ofList p.literal) :: value p

/-- Pieces in front of a text stand for their literal texts and the expressions of their inputs, in
front of what the text stands for. -/
theorem expands_pieces {pieces : List Piece} (hpieces : ∀ p ∈ pieces, p.IsApart)
    {value : Piece → Expression} (hvalue : ∀ p ∈ pieces, input? p.name = some (value p))
    {rest : List Char} {result : Except SourceFault Expression} (hrest : Expands input? rest result) :
    Expands input? (charsOf pieces ++ rest) (result.map (valueOf value pieces ++ ·)) := by
  induction pieces with
  | nil => cases result <;> exact hrest
  | cons p pieces ih =>
    obtain ⟨hp, hpieces⟩ := List.forall_mem_cons.mp hpieces
    obtain ⟨hinput, hvalue⟩ := List.forall_mem_cons.mp hvalue
    have hall := p.expands_known hp hinput (ih hpieces hvalue)
    rw [charsOf, List.flatMap_cons, List.append_assoc]
    cases result with
    | error fault => exact hall
    | ok tail =>
      have hvalues : valueOf value (p :: pieces) ++ tail =
          .text (String.ofList p.literal) :: (value p ++ (valueOf value pieces ++ tail)) := by
        simp only [valueOf, List.flatMap_cons, List.append_assoc, List.cons_append]
      simp only [Except.map, hvalues]
      exact hall

theorem render_valueOf (value : Piece → Expression) (pieces : List Piece) :
    (valueOf value pieces).render =
      String.join (pieces.map fun p => String.ofList p.literal ++ (value p).render) := by
  induction pieces with
  | nil => rfl
  | cons p pieces ih =>
    rw [valueOf, List.flatMap_cons, Expression.render_append, Expression.render_cons_text, ← valueOf,
      ih, List.map_cons, String.join_cons]

/-- Behind a literal text, a placeholder that is not closed is an error, also if the literal text ends
with a brace. -/
theorem expands_unterminated {literal rest : List Char} (hliteral : ¬ opening <:+: literal)
    (hrest : ¬ closing <:+: rest) :
    Expands input? (literal ++ (opening ++ rest)) (.error .unterminatedPlaceholder) := by
  by_cases hlast : literal.getLast? = some '\x7b'
  · obtain ⟨front, rfl⟩ := List.getLast?_eq_some_iff.mp hlast
    have hchars : front ++ ['\x7b'] ++ (opening ++ rest) =
        front ++ (opening ++ ('\x7b' :: rest)) := by
      simp only [opening, List.append_assoc, List.cons_append, List.nil_append]
    rw [hchars]
    refine .unterminated hliteral ?_
    rw [List.infix_cons_iff, not_or]
    exact ⟨by simp [closing], hrest⟩
  · exact .unterminated (plain_append_brace_iff.mpr ⟨hliteral, hlast⟩) hrest

/-- An unknown name is the only fault of a text but for a placeholder that is not closed. -/
theorem Expands.isOk_or_fault {cs : List Char} {result : Except SourceFault Expression}
    (h : Expands input? cs result) :
    (∃ e, result = .ok e) ∨ result = .error .unterminatedPlaceholder ∨
      ∃ name, input? name = none ∧ result = .error (.unknownInput name) := by
  induction h with
  | literal hplain => exact .inl ⟨_, rfl⟩
  | unterminated hopen hclose => exact .inr (.inl rfl)
  | unknown hopen hclose hinput => exact .inr (.inr ⟨_, hinput, rfl⟩)
  | known hopen hclose hinput hrest ih =>
    rcases ih with ⟨e, rfl⟩ | rfl | ⟨name, hname, rfl⟩
    · exact .inl ⟨_, rfl⟩
    · exact .inr (.inl rfl)
    · exact .inr (.inr ⟨name, hname, rfl⟩)

end Template

/-! ## The code of a node -/

namespace ShaderGraph

variable {g : ShaderGraph} {n : ShaderNode} {type name : String} {function? : Option String}
  {cs : List Char}

theorem sourceStatements_expands {result : Except SourceFault Expression}
    (h : Template.Expands (fun input => (n.input? input).map g.inputExpression) cs result) :
    g.sourceStatements n type name function? (some (String.ofList cs)) =
      (result.map fun e => [.declare type n.outputVariable (some e)]).mapError
        (.invalidSource name) := by
  rw [sourceStatements, String.toList_ofList]
  simp only [h.expand_eq]
  cases result <;> rfl

/-- The code of a node that is put together from pieces, with literal texts that are apart from the
placeholders behind them, stands for the literal texts with the expressions of the inputs in place of
the placeholders, whatever braces these expressions have. A placeholder behind the pieces that names
no input, or that is not closed, is an error of the implementation; no code has any other fault. -/
theorem sourceStatements_pieces (g : ShaderGraph) (n : ShaderNode) (type name : String)
    (function? : Option String) (pieces : List Template.Piece) (hpieces : ∀ p ∈ pieces, p.IsApart)
    (input : Template.Piece → ShaderInput)
    (hinput : ∀ p ∈ pieces, n.input? p.name = some (input p)) :
    (∀ last, ¬ Template.opening <:+: last → ∃ e,
      g.sourceStatements n type name function?
          (some (String.ofList (Template.charsOf pieces ++ last))) =
        .ok [.declare type n.outputVariable (some e)] ∧
      e.render =
        String.join (pieces.map fun p =>
          String.ofList p.literal ++ (g.inputExpression (input p)).render) ++
          String.ofList last) ∧
    (∀ (p : Template.Piece) (rest : List Char), p.IsApart → n.input? p.name = none →
      g.sourceStatements n type name function?
          (some (String.ofList (Template.charsOf pieces ++ (p.chars ++ rest)))) =
        .error (.invalidSource name (.unknownInput p.name))) ∧
    (∀ literal rest, ¬ Template.opening <:+: literal → ¬ Template.closing <:+: rest →
      g.sourceStatements n type name function?
          (some (String.ofList
            (Template.charsOf pieces ++ (literal ++ (Template.opening ++ rest))))) =
        .error (.invalidSource name .unterminatedPlaceholder)) ∧
    ∀ code,
      (∃ e, g.sourceStatements n type name function? (some code) =
        .ok [.declare type n.outputVariable (some e)]) ∨
      g.sourceStatements n type name function? (some code) =
        .error (.invalidSource name .unterminatedPlaceholder) ∨
      ∃ unknown, n.input? unknown = none ∧
        g.sourceStatements n type name function? (some code) =
          .error (.invalidSource name (.unknownInput unknown)) := by
  have hvalue : ∀ p ∈ pieces, (n.input? p.name).map g.inputExpression =
      some (g.inputExpression (input p)) := fun p hp => by rw [hinput p hp, Option.map_some]
  refine ⟨fun last hlast => ?_, fun p rest hp hunknown => ?_, fun literal rest hliteral hrest => ?_,
    fun code => ?_⟩
  · refine ⟨_, sourceStatements_expands
      (Template.expands_pieces hpieces hvalue (.literal hlast)), ?_⟩
    rw [Expression.render_append, Template.render_valueOf]
    simp [Expression.ofText, Expression.render, Fragment.render]
  · exact sourceStatements_expands
      (Template.expands_pieces hpieces hvalue (p.expands_unknown hp (by rw [hunknown]; rfl) rest))
  · exact sourceStatements_expands
      (Template.expands_pieces hpieces hvalue (Template.expands_unterminated hliteral hrest))
  · have hexpands := Template.expand_expands
      (fun input => (n.input? input).map g.inputExpression) code.toList
    have hstatements : g.sourceStatements n type name function?
        (some (String.ofList code.toList)) = _ := sourceStatements_expands hexpands
    rw [String.ofList_toList] at hstatements
    rw [hstatements]
    rcases hexpands.isOk_or_fault with ⟨e, he⟩ | hfault | ⟨unknown, hunknown, hfault⟩
    · rw [he]
      exact .inl ⟨e, rfl⟩
    · rw [hfault]
      exact .inr (.inl rfl)
    · rw [hfault]
      exact .inr (.inr ⟨unknown, Option.map_eq_none_iff.mp hunknown, rfl⟩)

namespace BracedSample

/-- An input whose expression looks like a placeholder. -/
def input : ShaderInput :=
  { name := "x", type := .float, binding := .uniform "\x7b\x7bx\x7d\x7d", value? := none }

/-- A node with this input. -/
def node : ShaderNode :=
  { name := "top", path := "top", category := "braced", nodeDef := "ND_braced", type := .float
    inputs := [input], code? := none }

/-- The graph of this node. -/
def graph : ShaderGraph := { name := "top", nodes := [node], root := 0, uniforms := ⟨[]⟩ }

/-- A placeholder for this input behind a literal text. -/
def piece (literal : List Char) (hliteral : ¬ Template.opening <:+: literal) : Template.Piece where
  literal := literal
  before := [' ']
  name := "x"
  after := ['\t']
  literal_plain := hliteral
  before_blank := List.forall_mem_singleton.mpr rfl
  after_blank := List.forall_mem_singleton.mpr rfl
  name_plain := by decide
  name_first := fun c (hc : some 'x' = some c) => Option.some.inj hc ▸ rfl
  name_last := fun c (hc : some 'x' = some c) => Option.some.inj hc ▸ rfl

/-- A piece whose literal text has braces but does not end with one that opens a placeholder. -/
def apart : Template.Piece := piece "\x7b \x7d\x7d".toList (by decide)

/-- A piece whose literal text ends with a brace. -/
def overlapping : Template.Piece := piece "\x7b".toList (by decide)

end BracedSample

open BracedSample in
theorem sourceStatements_pieces_braced :
    (∀ p ∈ [apart], p.IsApart) ∧ (∀ p ∈ [apart], node.input? p.name = some input) ∧
    ∃ e, graph.sourceStatements node "float" "IM_braced" none
        (some "\x7b \x7d\x7d\x7b\x7b x\t\x7d\x7d\x7d \x7b") =
      .ok [.declare "float" "top_out" (some e)] ∧
      e.render = "\x7b \x7d\x7d\x7b\x7bx\x7d\x7d\x7d \x7b" := by
  have hapart : ∀ p ∈ [apart], p.IsApart := by decide
  have hinput : ∀ p ∈ [apart], node.input? p.name = some input := by decide
  obtain ⟨e, hstatements, hrender⟩ := (sourceStatements_pieces graph node "float" "IM_braced" none
    [apart] hapart (fun _ => input) hinput).1 "\x7d \x7b".toList (by decide)
  exact ⟨hapart, hinput, e, hstatements, hrender⟩

/-- Not every text of pieces stands for their literal texts and expressions: a literal text may end
with a brace. -/
theorem not_sourceStatements_pieces :
    ¬ ∀ (g : ShaderGraph) (n : ShaderNode) (type name : String) (function? : Option String)
      (pieces : List Template.Piece) (input : Template.Piece → ShaderInput),
      (∀ p ∈ pieces, n.input? p.name = some (input p)) →
      ∀ last, ¬ Template.opening <:+: last → ∃ e,
        g.sourceStatements n type name function?
            (some (String.ofList (Template.charsOf pieces ++ last))) =
          .ok [.declare type n.outputVariable (some e)] := by
  intro h
  obtain ⟨e, he⟩ := h BracedSample.graph BracedSample.node "float" "IM_braced" none
    [BracedSample.overlapping] (fun _ => BracedSample.input) (by decide) [] (by decide)
  have hfault : BracedSample.graph.sourceStatements BracedSample.node "float" "IM_braced" none
      (some (String.ofList (BracedSample.overlapping.chars ++ []))) = _ :=
    sourceStatements_expands (BracedSample.overlapping.expands_overlapping
      (show _ = [] ++ ['\x7b'] from rfl) (by decide) [])
  rw [List.append_nil] at hfault
  cases he.symm.trans hfault

end ShaderGraph

end MaterialViewer
