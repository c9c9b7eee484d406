/-!
# Object notation

The text form in which settings are kept: named records, tuples, sequences and tables of numbers,
words and quoted texts. `Notation` is the tree of what is written; what a number or a word stands
for is up to whoever reads it.
-/

namespace MaterialViewer

/-- A word of the notation. A marked word has `r#` before it, and is no reserved word. -/
structure Notation.Word where
  /-- The word without the mark. -/
  name : String
  /-- Whether it has the mark. -/
  isMarked : Bool
deriving DecidableEq

/-- What is written in a text in object notation. -/
inductive Notation
  /-- A word on its own, such as `true` or the name of a choice. -/
  | word (w : Notation.Word)
  /-- A number as it is written. -/
  | number (digits : List Char)
  /-- A quoted text. -/
  | text (value : String)
  /-- A quoted character. -/
  | character (value : Char)
  /-- Quoted bytes. -/
  | bytes (values : List UInt8)
  /-- A quoted byte. -/
  | byte (value : UInt8)
  /-- Items in brackets. -/
  | sequence (items : List Notation)
  /-- Keys and values in braces. -/
  | table (entries : List (Notation × Notation))
  /-- An opening and a closing parenthesis side by side, without a name. -/
  | unit
  /-- Items in parentheses, under a name or not. -/
  | tuple (name? : Option Notation.Word) (items : List Notation)
  /-- Named fields in parentheses, under a name or not. -/
  | record (name? : Option Notation.Word) (fields : List (String × Notation))
  /-- A value after the word `Some`, not in parentheses. -/
  | bareSome (value : Notation)

namespace Notation

instance : Inhabited Notation := ⟨.unit⟩

/-- A word without a mark. -/
def Word.plain (name : String) : Word := ⟨name, false⟩

/-- The words with a meaning of their own. -/
def reservedWords : List String :=
  ["true", "false", "Some", "None", "inf", "inff32", "inff64", "NaN", "NaNf32", "NaNf64"]

/-- Whether a word has a meaning of its own. -/
def Word.isReserved (w : Word) : Bool := !w.isMarked && reservedWords.contains w.name

/-- The word for the name of a choice, marked if it is a reserved word. -/
def choice (name : String) : Notation := .word ⟨name, reservedWords.contains name⟩

/-- The extensions of the notation that a text may switch on. -/
structure Dialect where
  /-- Optional values may be written without `Some`. -/
  implicitSome : Bool := false
  /-- A tuple inside `Some` has no parentheses of its own. -/
  unwrapVariants : Bool := false
  /-- Records must have names. -/
  explicitNames : Bool := false

/-- Switch on the extension with a name. -/
def Dialect.enable? (d : Dialect) : String → Option Dialect
  | "implicit_some" => some { d with implicitSome := true }
  | "unwrap_variant_newtypes" => some { d with unwrapVariants := true }
  | "explicit_struct_names" => some { d with explicitNames := true }
  | "unwrap_newtypes" => some d
  | _ => none

end Notation

end MaterialViewer
