import MaterialViewer.Number.Decimal
import MaterialViewer.Text.Split
import MaterialViewer.Value.Type

/-!
# Values

A value of an input or a parameter, and its text in documents. `Value.parse` reads the text of a
given type; `Value.text` writes a value so that reading it again, as the value's own type, gives it
back, unless it holds a NaN.
-/

namespace MaterialViewer

/-- A value of an input or a parameter. -/
inductive Value
  | boolean (b : Bool)
  | integer (i : Int32)
  | float (x : Single)
  /-- A color, a vector or a matrix in row order. -/
  | tuple (shape : TupleType) (components : List Single)
      (size_eq : components.length = shape.size)
  | string (text : String)
  | filename (path : String)
  | integerArray (items : List Int32)
  | floatArray (items : List Single)
  | stringArray (items : List String)
deriving DecidableEq

/-- Why a text is not a value. -/
inductive ValueError
  /-- The text is not one of the type: a malformed number, or a wrong number of components. -/
  | invalid (type : ValueType) (text : String)
  /-- The type has no literal values. -/
  | noValue (type : ValueType)
deriving DecidableEq

/-- The text of a value error. -/
def ValueError.message : ValueError → String
  | invalid type text => s!"Invalid {type.name} value: '{text}'"
  | noValue type => s!"Type {type.name} has no value representation"

namespace Value

/-- The type of a value. -/
def type : Value → ValueType
  | boolean _ => .boolean
  | integer _ => .integer
  | float _ => .float
  | tuple shape _ _ => .tuple shape
  | string _ => .string
  | filename _ => .filename
  | integerArray _ => .integerArray
  | floatArray _ => .floatArray
  | stringArray _ => .stringArray

/-- The value of a tuple type with the given components, if their number is right. -/
def ofComponents? (shape : TupleType) (components : List Single) : Option Value :=
  if h : components.length = shape.size then some (tuple shape components h) else none

/-! ## Reading -/

/-- A truth value is written as a word or as a digit. -/
def readBoolean? (text : String) : Option Bool :=
  if text = "true" ∨ text = "1" then some true
  else if text = "false" ∨ text = "0" then some false
  else none

/-- The items of a comma-separated list, each read by `read`. -/
def readItems? {α : Type} (read : List Char → Option α) (text : String) : Option (List α) :=
  (Text.fieldChars ',' text.toList).mapM read

/-- The value with the given type and text. -/
def parse (type : ValueType) (text : String) : Except ValueError Value :=
  let require (value : Option Value) : Except ValueError Value :=
    match value with
    | some value => .ok value
    | none => .error (.invalid type text)
  match type with
  | .boolean => require ((readBoolean? (Text.trim text)).map boolean)
  | .integer => require ((Number.readInt32? (Text.trim text).toList).map integer)
  | .float => require ((Number.readSingle? (Text.trim text).toList).map float)
  | .tuple shape => require ((readItems? Number.readSingle? text).bind (ofComponents? shape))
  | .string | .custom _ => .ok (string text)
  | .filename => .ok (filename text)
  | .integerArray => require ((readItems? Number.readInt32? text).map integerArray)
  | .floatArray => require ((readItems? Number.readSingle? text).map floatArray)
  | .stringArray => .ok (stringArray (Text.fields ',' text))
  | .closure _ => .error (.noValue type)

/-- The value with the given type and text, if the text is one. -/
def parse? (type : ValueType) (text : String) : Option Value := (parse type text).toOption

/-! ## Writing -/

/-- The text of a list: items with a comma and a blank between neighbours. -/
def listText (items : List (List Char)) : String :=
  Text.joinWith ", " (items.map String.ofList)

/-- The text of a value, as documents write it. -/
def text : Value → String
  | boolean b => if b then "true" else "false"
  | integer i => String.ofList (Number.int32Text i)
  | float x => String.ofList (Number.plainText x)
  | tuple _ components _ => listText (components.map Number.plainText)
  | string text => text
  | filename path => path
  | integerArray items => listText (items.map Number.int32Text)
  | floatArray items => listText (items.map Number.plainText)
  | stringArray items => Text.joinWith ", " items

/-! ## Views -/

/-- The identity matrix with `order` rows, in row order. -/
def identityComponents (order : Nat) : List Single :=
  (List.range (order * order)).map fun i => if i % (order + 1) = 0 then .one else .zero

/-- The zero of a type, the identity for a matrix, and `none` for a closure. -/
def default? : ValueType → Option Value
  | .boolean => some (boolean false)
  | .integer => some (integer 0)
  | .float => some (float .zero)
  | .tuple shape =>
    match shape.matrixOrder? with
    | some order => ofComponents? shape (identityComponents order)
    | none => some (tuple shape (List.replicate shape.size .zero) (by simp))
  | .string | .custom _ => some (string "")
  | .filename => some (filename "")
  | .integerArray => some (integerArray [])
  | .floatArray => some (floatArray [])
  | .stringArray => some (stringArray [])
  | .closure _ => none

/-- The floats a numeric value is made of, in the order of its text. -/
def floats? : Value → Option (List Single)
  | boolean b => some [if b then .one else .zero]
  | integer i => some [.ofInt i.toInt]
  | float x => some [x]
  | tuple _ components _ => some components
  | floatArray items => some items
  | string _ | filename _ | integerArray _ | stringArray _ => none

/-- The text of a string or a file name. -/
def string? : Value → Option String
  | string text | filename text => some text
  | _ => none

/-- Equality of values in which floats are compared as numbers. -/
def sameValue (v w : Value) : Bool :=
  let sameFloats (xs ys : List Single) : Bool :=
    xs.length = ys.length && (xs.zip ys).all fun (x, y) => x.sameNumber y
  match v, w with
  | float x, float y => x.sameNumber y
  | tuple s xs _, tuple t ys _ => s = t && sameFloats xs ys
  | floatArray xs, floatArray ys => sameFloats xs ys
  | v, w => v = w

/-- Whether some float of the value satisfies `p`; false for a value that is not numeric. -/
def anyFloat (p : Single → Bool) (v : Value) : Bool :=
  match v.floats? with
  | some xs => xs.any p
  | none => false

end Value

end MaterialViewer
