/-!
# Types of values

The type of an input, a parameter or an output, as documents name it. The tuple types hold a fixed
number of floats; the closure types have no literal value at all; a name that is none of the known
ones is a type of its own, whose values are plain text.
-/

namespace MaterialViewer

/-- The types whose values are a fixed number of floats, more than one. -/
inductive TupleType
  | color3 | color4 | vector2 | vector3 | vector4 | matrix33 | matrix44
deriving DecidableEq, Repr

/-- The types of shading closures and shaders, which have no literal value. -/
inductive ClosureType
  | bsdf | edf | vdf | surfaceShader | volumeShader | displacementShader | lightShader
deriving DecidableEq, Repr

/-- The type of an input, a parameter or an output. -/
inductive ValueType
  | boolean
  | integer
  | float
  /-- A fixed number of floats. -/
  | tuple (shape : TupleType)
  | string
  /-- The path of a file, which a shader samples as a texture. -/
  | filename
  | integerArray
  | floatArray
  | stringArray
  /-- A closure or a shader. -/
  | closure (kind : ClosureType)
  /-- Any other type, known by its name only. -/
  | custom (name : String)
deriving DecidableEq, Repr

namespace TupleType

/-- The name of a tuple type in documents. -/
def name : TupleType → String
  | color3 => "color3"
  | color4 => "color4"
  | vector2 => "vector2"
  | vector3 => "vector3"
  | vector4 => "vector4"
  | matrix33 => "matrix33"
  | matrix44 => "matrix44"

/-- The number of floats of a tuple type. -/
def size : TupleType → Nat
  | vector2 => 2
  | color3 | vector3 => 3
  | color4 | vector4 => 4
  | matrix33 => 9
  | matrix44 => 16

/-- The number of rows of a matrix type, and `none` for a type that is not a matrix. -/
def matrixOrder? : TupleType → Option Nat
  | matrix33 => some 3
  | matrix44 => some 4
  | _ => none

end TupleType

/-- The name of a closure type in documents. -/
def ClosureType.name : ClosureType → String
  | bsdf => "BSDF"
  | edf => "EDF"
  | vdf => "VDF"
  | surfaceShader => "surfaceshader"
  | volumeShader => "volumeshader"
  | displacementShader => "displacementshader"
  | lightShader => "lightshader"

namespace ValueType

/-- The name of a type in documents. -/
def name : ValueType → String
  | boolean => "boolean"
  | integer => "integer"
  | float => "float"
  | tuple shape => shape.name
  | string => "string"
  | filename => "filename"
  | integerArray => "integerarray"
  | floatArray => "floatarray"
  | stringArray => "stringarray"
  | closure kind => kind.name
  | custom name => name

/-- The types that documents know by a name of their own. -/
def known : List ValueType :=
  [boolean, integer, float, tuple .color3, tuple .color4, tuple .vector2, tuple .vector3,
    tuple .vector4, tuple .matrix33, tuple .matrix44, string, filename, integerArray, floatArray,
    stringArray, closure .bsdf, closure .edf, closure .vdf, closure .surfaceShader,
    closure .volumeShader, closure .displacementShader, closure .lightShader]

/-- The type with the given name. -/
def ofName (name : String) : ValueType :=
  (known.find? (·.name = name)).getD (custom name)

/-- The number of floats a value of the type is made of; zero for a type that is not numeric. -/
def components : ValueType → Nat
  | boolean | integer | float => 1
  | tuple shape => shape.size
  | _ => 0

/-- Whether the type is a closure or a shader. -/
def isClosure : ValueType → Bool
  | closure _ => true
  | _ => false

theorem name_ofName (name : String) : (ofName name).name = name := by
  unfold ofName
  cases h : known.find? (·.name = name) with
  | none => rfl
  | some t => simpa using List.find?_some h

end ValueType

end MaterialViewer
