import MaterialViewer.Graph.Error
import MaterialViewer.Graph.Node

/-!
# Statements of shader code

The statements that compute the outputs of nodes. An expression is text with references to the
variables that hold outputs, so that what a statement declares and what it uses can be told.

The code of an implementation is a template: a name between double braces stands for the input with
that name. Inserted text is not expanded again.
-/

namespace MaterialViewer

/-- A part of an expression. -/
inductive Fragment
  /-- Text that refers to no output. -/
  | text (s : String)
  /-- The variable that holds the output of a node. -/
  | output (name : String)
deriving DecidableEq

/-- An expression: the texts of its parts, one after the other. -/
abbrev Expression := List Fragment

/-- A statement. -/
inductive Statement
  /-- A remark that no code follows for a node. -/
  | comment (text : String)
  /-- A declaration of a variable, with an initial value if there is one. -/
  | declare (type name : String) (value? : Option Expression)
  /-- A call of a function. -/
  | call (function : String) (arguments : List Expression)
  /-- An assignment to a variable declared elsewhere. -/
  | assign (target : String) (value : Expression)
deriving DecidableEq

/-- The text of a part of an expression. -/
def Fragment.render : Fragment → String
  | text s => s
  | output name => name

namespace Expression

/-- The expression that is just a text. -/
def ofText (s : String) : Expression := [.text s]

/-- The text of an expression. -/
def render (e : Expression) : String := String.join (e.map Fragment.render)

/-- The variables of node outputs that an expression uses. -/
def outputs (e : Expression) : List String :=
  e.filterMap fun
    | .output name => some name
    | .text _ => none

end Expression

namespace Statement

/-- The line of code of a statement. -/
def render : Statement → String
  | comment text => "// " ++ text
  | declare type name none => s!"{type} {name};"
  | declare type name (some value) => s!"{type} {name} = {Expression.render value};"
  | call function arguments =>
    function ++ "(" ++ Text.joinWith ", " (arguments.map Expression.render) ++ ");"
  | assign target value => s!"{target} = {Expression.render value};"

/-- The variable that a statement declares. -/
def declared? : Statement → Option String
  | declare _ name _ => some name
  | comment _ | call .. | assign .. => none

/-- The variables of node outputs that a statement uses. -/
def outputs : Statement → List String
  | comment _ | declare _ _ none => []
  | declare _ _ (some value) | assign _ value => Expression.outputs value
  | call _ arguments => arguments.flatMap Expression.outputs

end Statement

/-! ## Inputs -/

/-- The literal that stands for an input without a value. -/
def ShaderInput.fallback (input : ShaderInput) : String :=
  (Glsl.defaultLiteral? input.type).getD "0"

/-- The expression for an input of a node. -/
def ShaderGraph.inputExpression (g : ShaderGraph) (input : ShaderInput) : Expression :=
  match input.binding with
  | .connection index =>
    match g.nodes[index]? with
    | some node => [.output node.outputVariable]
    | none => .ofText input.fallback
  | .uniform name => .ofText name
  | .constant value => .ofText ((Glsl.literal? value).getD input.fallback)
  | .unbound => .ofText input.fallback

/-! ## Templates -/

/-- What placeholders begin with. -/
def Template.opening : List Char := ['\x7b', '\x7b']

/-- What placeholders end with. -/
def Template.closing : List Char := ['\x7d', '\x7d']

/-- The expression that a template stands for, where `input?` gives the expression of an input. -/
def Template.expand (input? : String → Option Expression) (cs : List Char) :
    Except SourceFault Expression :=
  match _h : Text.splitAtFirst? Template.opening cs with
  | none => .ok (.ofText (String.ofList cs))
  | some (front, afterOpening) =>
    match _h' : Text.splitAtFirst? Template.closing afterOpening with
    | none => .error .unterminatedPlaceholder
    | some (body, rest) =>
      let name := String.ofList (Text.trimWhile Text.isBlank body)
      match input? name with
      | none => .error (.unknownInput name)
      | some inserted =>
        (Template.expand input? rest).map fun tail =>
          .text (String.ofList front) :: (inserted ++ tail)
termination_by cs.length
decreasing_by
  have h₁ := Text.length_of_splitAtFirst? (by simp [Template.opening]) _h
  have h₂ := Text.length_of_splitAtFirst? (by simp [Template.closing]) _h'
  omega

end MaterialViewer
