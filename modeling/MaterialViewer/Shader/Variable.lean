import MaterialViewer.Shader.Glsl

/-!
# Shader variables

Uniforms, vertex inputs and varyings, and blocks of them. A block holds at most one variable of each
name, in the order of registration; registering a name again changes nothing.
-/

namespace MaterialViewer

/-- A uniform, a vertex input or a varying. -/
structure ShaderVariable where
  /-- The name in the code. -/
  name : String
  /-- The type. -/
  type : ValueType
  /-- The default value. -/
  value? : Option Value := none
  /-- The path of the input for which the variable was made; empty for a built-in one. -/
  path : String := ""
deriving DecidableEq

/-- The declaration of a variable, without qualifier and initializer. -/
def ShaderVariable.declaration? (v : ShaderVariable) : Option String :=
  (Glsl.typeName? v.type).map fun type => type ++ " " ++ v.name

/-- The declaration of a variable, without qualifier, that sets it to its default. -/
def ShaderVariable.initializedDeclaration? (v : ShaderVariable) : Option String :=
  v.declaration?.map fun declaration =>
    match v.value?.bind Glsl.literal? with
    | some literal => declaration ++ " = " ++ literal
    | none => declaration

/-- Variables of different names, in the order of their registration. -/
structure VariableBlock where
  /-- The variables. -/
  entries : List ShaderVariable := []
deriving DecidableEq, Inhabited

namespace VariableBlock

/-- The variable with a name. -/
def get? (b : VariableBlock) (name : String) : Option ShaderVariable :=
  b.entries.find? (·.name = name)

/-- Whether a name is registered. -/
def contains (b : VariableBlock) (name : String) : Bool := (b.get? name).isSome

/-- Register a variable, unless its name is registered already. -/
def add (b : VariableBlock) (v : ShaderVariable) : VariableBlock :=
  if b.contains v.name then b else ⟨b.entries ++ [v]⟩

/-- The block with several variables registered, one after the other. -/
def addAll (b : VariableBlock) (vs : List ShaderVariable) : VariableBlock := vs.foldl add b

/-- The first variable made for the input with a path. -/
def find? (b : VariableBlock) (path : String) : Option ShaderVariable :=
  b.entries.find? (·.path = path)

/-- The names in the order of registration. -/
def names (b : VariableBlock) : List String := b.entries.map (·.name)

end VariableBlock

end MaterialViewer
