import MaterialViewer.Notation.Basic
import MaterialViewer.Notation.Quoted

/-!
# Printing object notation

Records, sequences and tables have one entry on a line, four blanks deeper than the line that opens
them, each with a comma behind it; without entries they close on the same line. Tuples stay on one
line.
-/

namespace MaterialViewer.Notation

/-- The beginning of a line at a depth. -/
def margin (depth : Nat) : List Char := List.replicate (4 * depth) ' '

/-- A word with its mark. -/
def wordText (w : Word) : List Char := (if w.isMarked then ['r', '#'] else []) ++ w.name.toList

/-- A name, if there is one. -/
def nameText (name? : Option Word) : List Char := (name?.map wordText).getD []

/-- Entries on lines of their own, between an opening and a closing bracket. -/
def block (depth : Nat) (opening closing : Char) (entries : List (List Char)) : List Char :=
  if entries.isEmpty then [opening, closing]
  else
    (opening :: '\n' :: entries.flatMap fun entry => margin (depth + 1) ++ entry ++ [',', '\n']) ++
      margin depth ++ [closing]

mutual

/-- The text of a tree whose first line is at the given depth. -/
def print (depth : Nat) : Notation → List Char
  | word w => wordText w
  | number digits => digits
  | text value => Quoted.encode value
  | character value => ['\''] ++ Quoted.encodeChar value ++ ['\'']
  | bytes values => ['b', '"'] ++ values.flatMap Quoted.encodeByte ++ ['"']
  | byte value => ['b', '\''] ++ Quoted.encodeByte value ++ ['\'']
  | sequence items => block depth '[' ']' (printAll (depth + 1) items)
  | table entries => block depth '\x7b' '\x7d' (printEntries (depth + 1) entries)
  | unit => ['(', ')']
  | bareSome value => "Some ".toList ++ print depth value
  | tuple name? items =>
    nameText name? ++ ['('] ++ [',', ' '].intercalate (printAll depth items) ++ [')']
  | record name? fields => nameText name? ++ block depth '(' ')' (printFields (depth + 1) fields)

/-- The texts of several trees. -/
def printAll (depth : Nat) : List Notation → List (List Char)
  | [] => []
  | item :: items => print depth item :: printAll depth items

/-- The texts of keys with values. -/
def printEntries (depth : Nat) : List (Notation × Notation) → List (List Char)
  | [] => []
  | (key, value) :: entries =>
    (print depth key ++ [':', ' '] ++ print depth value) :: printEntries depth entries

/-- The texts of named fields. -/
def printFields (depth : Nat) : List (String × Notation) → List (List Char)
  | [] => []
  | (name, value) :: fields =>
    (name.toList ++ [':', ' '] ++ print depth value) :: printFields depth fields

end

/-- The text of a tree. -/
def render (n : Notation) : String := String.ofList (print 0 n)

end MaterialViewer.Notation
