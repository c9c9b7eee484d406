import MaterialViewer.Value.Basic

/-!
# Shading language text

The types, literals and identifiers of the shading language in which shaders are written. Types
without a counterpart there (texts, arrays and unknown types) have neither a type name nor literals.
-/

namespace MaterialViewer.Glsl

/-- The declarations of closure and shader types, which come before any other code. -/
def closureDefinitions : String :=
  "#define BSDF vec3\n" ++
  "#define EDF vec3\n" ++
  "#define VDF vec3\n" ++
  "struct surfaceshader \x7b vec3 color; vec3 transparency; \x7d;\n" ++
  "struct volumeshader \x7b vec3 color; vec3 transparency; \x7d;\n" ++
  "struct displacementshader \x7b vec3 offset; float scale; \x7d;\n" ++
  "struct lightshader \x7b vec3 intensity; vec3 direction; \x7d;\n"

/-- The name of a tuple type in shaders, which is also its constructor. -/
def tupleName : TupleType → String
  | .color3 | .vector3 => "vec3"
  | .color4 | .vector4 => "vec4"
  | .vector2 => "vec2"
  | .matrix33 => "mat3"
  | .matrix44 => "mat4"

/-- The name of a type in shaders. -/
def typeName? : ValueType → Option String
  | .boolean => some "bool"
  | .integer => some "int"
  | .float => some "float"
  | .tuple shape => some (tupleName shape)
  | .filename => some "sampler2D"
  | .closure kind => some kind.name
  | .string | .integerArray | .floatArray | .stringArray | .custom _ => none

/-- Whether values of a type can be passed to shader code. -/
def isShaderType (type : ValueType) : Bool := (typeName? type).isSome

/-- The literal of a float. There is none for infinities and NaN, which are written as zero. -/
def floatLiteral (x : Single) : String :=
  if x.isFinite then String.ofList (Number.exactText x) else "0.0"

/-- A constructor applied to floats. -/
def constructorText (name : String) (components : List Single) : String :=
  name ++ "(" ++ Text.joinWith ", " (components.map floatLiteral) ++ ")"

/-- The components of a square matrix, from row order to column order or back. -/
def transpose (order : Nat) (components : List Single) : List Single :=
  (List.range order).flatMap fun column =>
    (List.range order).map fun row => components.getD (row * order + column) .zero

/-- The components of a tuple in the order of shaders, in which matrices go by columns. -/
def shaderOrder (shape : TupleType) (components : List Single) : List Single :=
  match shape.matrixOrder? with
  | some order => transpose order components
  | none => components

/-- The literal of a value. -/
def literal? : Value → Option String
  | .boolean b => some (if b then "true" else "false")
  | .integer i => some (String.ofList (Number.int32Text i))
  | .float x => some (floatLiteral x)
  | .tuple shape components _ =>
    some (constructorText (tupleName shape) (shaderOrder shape components))
  | .string _ | .filename _ | .integerArray _ | .floatArray _ | .stringArray _ => none

/-- The literal of a closure or shader that does nothing. -/
def closureLiteral : ClosureType → String
  | .bsdf | .edf | .vdf => "vec3(0.0)"
  | .surfaceShader => "surfaceshader(vec3(0.0), vec3(0.0))"
  | .volumeShader => "volumeshader(vec3(0.0), vec3(0.0))"
  | .displacementShader => "displacementshader(vec3(0.0), 1.0)"
  | .lightShader => "lightshader(vec3(0.0), vec3(0.0))"

/-- The literal of the default of a type. -/
def defaultLiteral? : ValueType → Option String
  | .closure kind => some (closureLiteral kind)
  | type => (Value.default? type).bind literal?

/-! ## Identifiers -/

/-- Whether a character may stand in an identifier. -/
def isIdentifierChar (c : Char) : Bool := c.isAlphanum || c = '_'

/-- The characters of an identifier made from those of a name. -/
def identifierChars (name : List Char) : List Char :=
  let plain := name.map fun c => if c.isAlphanum then c else '_'
  let led :=
    match plain with
    | [] => ['_']
    | c :: _ => if c.isDigit then '_' :: plain else plain
  if "gl_".toList.isPrefixOf led then '_' :: led else led

/-- An identifier made from a name: other characters than ASCII letters and digits become
underscores, and another one is put in front of a digit and of the reserved beginning `gl_`. -/
def identifier (name : String) : String := String.ofList (identifierChars name.toList)

end MaterialViewer.Glsl
