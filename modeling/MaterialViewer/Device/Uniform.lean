import MaterialViewer.Shader.Glsl

/-!
# Uniform values

The values that can be written to a uniform of a program. Matrices are held by columns, as shaders
read them, while documents hold them by rows.
-/

namespace MaterialViewer

/-- A value of a uniform. -/
inductive UniformValue
  | bool (b : Bool)
  | int (i : Int32)
  | float (x : Single)
  /-- A vector with as many components as the list has. -/
  | vector (components : List Single)
  /-- A square matrix with the given number of rows, by columns. -/
  | matrix (order : Nat) (columns : List Single)
  /-- A texture, given by the unit that it is bound to. -/
  | sampler (unit : Nat)
deriving DecidableEq

namespace UniformValue

/-- A count as an integer; counts beyond the range become the largest integer. -/
def count (n : Nat) : UniformValue := .int (Int32.ofNat (min n (Nat.pow 2 31 - 1)))

/-- The uniform value of a document value. Texts and arrays have none. -/
def ofValue? : Value → Option UniformValue
  | .boolean b => some (.bool b)
  | .integer i => some (.int i)
  | .float x => some (.float x)
  | .tuple shape components _ =>
    some <|
      match shape.matrixOrder? with
      | some order => .matrix order (Glsl.transpose order components)
      | none => .vector components
  | .string _ | .filename _ | .integerArray _ | .floatArray _ | .stringArray _ => none

end UniformValue

end MaterialViewer
