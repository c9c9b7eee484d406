/-!
# Code buffers

A growing text of code, with the current depth of indentation and a record of the variables that
the code has computed already.
-/

namespace MaterialViewer

/-- A text of code under construction. -/
structure CodeBuffer where
  /-- The code so far. -/
  code : String := ""
  /-- The current depth of indentation. -/
  depth : Nat := 0
  /-- The variables computed so far. -/
  calculated : List String := []
deriving DecidableEq, Inhabited

namespace CodeBuffer

/-- The blanks in front of a line at a depth. -/
def indentation (depth : Nat) : String := String.ofList (List.replicate (4 * depth) ' ')

/-- Append one line at the current depth. -/
def line (b : CodeBuffer) (text : String) : CodeBuffer :=
  { b with code := b.code ++ indentation b.depth ++ text ++ "\n" }

/-- Append text as it is, with a line break at its end if it has none. -/
def block (b : CodeBuffer) (text : String) : CodeBuffer :=
  { b with
    code := b.code ++ (if text.toList.getLast? = some '\n' then text else text ++ "\n") }

/-- Append an empty line. -/
def blank (b : CodeBuffer) : CodeBuffer := { b with code := b.code ++ "\n" }

/-- Open a scope. -/
def openScope (b : CodeBuffer) : CodeBuffer :=
  let b := b.line "\x7b"
  { b with depth := b.depth + 1 }

/-- Close a scope, with some text after its brace. -/
def closeScope (b : CodeBuffer) (tail : String) : CodeBuffer :=
  { b with depth := b.depth - 1 }.line ("\x7d" ++ tail)

/-- Append several lines at the current depth. -/
def lines (b : CodeBuffer) (texts : List String) : CodeBuffer := texts.foldl line b

/-- Whether a variable was computed. -/
def isCalculated (b : CodeBuffer) (name : String) : Bool := b.calculated.contains name

/-- Record that a variable was computed. -/
def setCalculated (b : CodeBuffer) (name : String) : CodeBuffer :=
  { b with calculated := b.calculated.insert name }

end CodeBuffer

end MaterialViewer
