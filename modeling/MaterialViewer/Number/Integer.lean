/-!
# Decimal integers

An integer is written with ASCII digits and an optional sign. A reader is fixed by its range, and a
text outside the range is refused, not wrapped. Only a range with negative numbers admits the
sign `-`; the sign `+` is always admitted.
-/

namespace MaterialViewer.Number

/-- The value of an ASCII digit. -/
def digit? (c : Char) : Option Nat :=
  if '0' ≤ c ∧ c ≤ '9' then some (c.toNat - '0'.toNat) else none

/-- The value of a list of digits that follows the digits with value `acc`. -/
def digitsFrom? (acc : Nat) : List Char → Option Nat
  | [] => some acc
  | c :: cs => (digit? c).bind fun d => digitsFrom? (10 * acc + d) cs

/-- The value of a list of at least one digit. -/
def digits? (cs : List Char) : Option Nat := if cs = [] then none else digitsFrom? 0 cs

/-- A natural number below `bound`, written with an optional `+`. -/
def readBelow? (bound : Nat) (cs : List Char) : Option Nat :=
  (match cs with
    | '+' :: rest => digits? rest
    | _ => digits? cs).filter (· < bound)

/-- A 32-bit signed integer, written with an optional sign. -/
def readInt32? (cs : List Char) : Option Int32 :=
  match cs with
  | '-' :: rest => ((digits? rest).filter (· ≤ Nat.pow 2 31)).map fun n => Int32.ofInt (-(n : Int))
  | '+' :: rest => ((digits? rest).filter (· < Nat.pow 2 31)).map fun n => Int32.ofInt n
  | _ => ((digits? cs).filter (· < Nat.pow 2 31)).map fun n => Int32.ofInt n

/-- The decimal digits of a natural number, without leading zeros. -/
def natText (n : Nat) : List Char := Nat.toDigits 10 n

/-- The decimal text of a 32-bit signed integer. -/
def int32Text (i : Int32) : List Char :=
  if i < 0 then '-' :: natText i.toInt.natAbs else natText i.toInt.natAbs

end MaterialViewer.Number
