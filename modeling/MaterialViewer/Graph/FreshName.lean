import MaterialViewer.Shader.Glsl

/-!
# Fresh names

Variables of generated code are named after elements of the document, so names that are already used
have to be avoided: a used name gets the first free one of the numbers 1, 2, … at its end. As there
are more numbered names than used ones, a free one is found.
-/

namespace MaterialViewer.FreshName

/-- The candidate of a number for a base name: the base itself, then the base with a number. -/
def candidate (base : String) (number : Nat) : String :=
  if number = 0 then base else base ++ String.ofList (Number.natText number)

/-- The first candidate from a number on that is not used; `steps` bounds the search. -/
def searchFrom (used : List String) (base : String) : Nat → Nat → String
  | 0, number => candidate base number
  | steps + 1, number =>
    if used.contains (candidate base number) then searchFrom used base steps (number + 1)
    else candidate base number

/-- A name made from `base` that is an identifier and not used. -/
def fresh (used : List String) (base : String) : String :=
  searchFrom used (Glsl.identifier base) used.length 0

end MaterialViewer.FreshName
