import MaterialViewer.Notation.Numeral
import MaterialViewer.Notation.Basic

/-!
# Values that are passed over

A field that is not known is passed over, but its value still has to mean something: reserved words
are used as such, numbers are numbers of some kind, and values nest to a limited depth. Each bracket
takes one level, and so does each value in it; `Some` takes one level for both.
-/

namespace MaterialViewer.Notation

/-- The number of levels to which values may nest. -/
def depthLimit : Nat := 128

/-- The levels that are left for the value of a field, of those left for its record. -/
def fieldDepth (depth : Nat) : Nat := depth - 2

/-- Whether there are levels left for a bracket, with values in it or not. -/
def fits (depth : Nat) (isEmpty : Bool) : Bool := if isEmpty then 1 ≤ depth else 2 ≤ depth

mutual

/-- Whether a value means something, with `depth` levels left. -/
def isMeaningful (dialect : Dialect) (depth : Nat) : Notation → Bool
  | word w => w ≠ .plain "Some"
  | number digits => isNumber digits
  | text _ | character _ | bytes _ | byte _ | unit => true
  | sequence items => fits depth items.isEmpty && areMeaningful dialect (depth - 2) items
  | table entries => fits depth entries.isEmpty && areEntriesMeaningful dialect (depth - 2) entries
  | bareSome value =>
    dialect.implicitSome && 1 ≤ depth && isMeaningful dialect (depth - 1) value
  | tuple name? items =>
    if name? = some (.plain "Some") then
      1 ≤ depth &&
        match items with
        | [] => dialect.unwrapVariants
        | [item] => isMeaningful dialect (depth - 1) item
        | items => dialect.unwrapVariants && fits (depth - 1) false &&
          areMeaningful dialect (depth - 3) items
    else
      !name?.any Word.isReserved && fits depth items.isEmpty &&
        areMeaningful dialect (depth - 2) items
  | record name? fields =>
    if name? = some (.plain "Some") then
      dialect.unwrapVariants && 1 ≤ depth && fits (depth - 1) fields.isEmpty &&
        areFieldsMeaningful dialect (depth - 3) fields
    else
      !name?.any Word.isReserved && fits depth fields.isEmpty &&
        areFieldsMeaningful dialect (depth - 2) fields

/-- Whether all values mean something. -/
def areMeaningful (dialect : Dialect) (depth : Nat) : List Notation → Bool
  | [] => true
  | item :: items => isMeaningful dialect depth item && areMeaningful dialect depth items

/-- Whether all keys and values mean something. -/
def areEntriesMeaningful (dialect : Dialect) (depth : Nat) : List (Notation × Notation) → Bool
  | [] => true
  | (key, value) :: entries =>
    isMeaningful dialect depth key && isMeaningful dialect depth value &&
      areEntriesMeaningful dialect depth entries

/-- Whether the values of all fields mean something. -/
def areFieldsMeaningful (dialect : Dialect) (depth : Nat) : List (String × Notation) → Bool
  | [] => true
  | (_, value) :: fields =>
    isMeaningful dialect depth value && areFieldsMeaningful dialect depth fields

end

end MaterialViewer.Notation
