import MaterialViewer.Notation.Quoted
import MaterialViewer.Number.Decimal
import MaterialViewer.Number.Integer

/-!
# Numbers in object notation

An integer has a sign, one of four bases, digits with underscores between them, and the name of the
kind of integers to which it belongs, which may be left out. A number with a fraction may end in the
name of its kind as well, and may be infinite or no number.
-/

namespace MaterialViewer.Notation

/-! ## Integers -/

/-- A kind of integers. -/
structure IntegerKind where
  /-- Whether there are negative ones. -/
  isSigned : Bool
  /-- The number of bits. -/
  bits : Nat
deriving DecidableEq

namespace IntegerKind

/-- All kinds. -/
def all : List IntegerKind :=
  [8, 16, 32, 64].flatMap fun bits => [⟨true, bits⟩, ⟨false, bits⟩]

/-- The name of a kind. -/
def name (k : IntegerKind) : List Char := (if k.isSigned then 'i' else 'u') :: Number.natText k.bits

/-- The kind with a name. -/
def ofName? (name : List Char) : Option IntegerKind := all.find? (·.name = name)

/-- Whether an integer of a kind may have a sign and a magnitude. -/
def contains (k : IntegerKind) (negative : Bool) (magnitude : Nat) : Bool :=
  if k.isSigned then
    magnitude < Nat.pow 2 (k.bits - 1) || (negative && magnitude = Nat.pow 2 (k.bits - 1))
  else magnitude < Nat.pow 2 k.bits && (!negative || magnitude = 0)

end IntegerKind

/-- An integer as it is written. -/
structure Integer where
  /-- Whether it has the sign `-`. -/
  negative : Bool
  /-- Its value without the sign. -/
  magnitude : Nat
  /-- The kind that is named behind it. -/
  kind? : Option IntegerKind

/-- The value of digits in a base, with underscores between them. -/
def readDigits? (base : Nat) (cs : List Char) : Option Nat :=
  if cs.isEmpty ∨ cs.head? = some '_' then none
  else
    (cs.filter (· ≠ '_')).foldlM (fun n c => do
      let digit ← Quoted.hexDigit? c
      guard (digit < base)
      return base * n + digit) 0

/-- Whether a character can be part of the digits of an integer. -/
def isDigitPart (c : Char) : Bool := (Quoted.hexDigit? c).isSome || c = '_'

/-- The base of an integer by its first characters, and the rest. -/
def readBase : List Char → Nat × List Char
  | '0' :: 'b' :: rest => (2, rest)
  | '0' :: 'o' :: rest => (8, rest)
  | '0' :: 'x' :: rest => (16, rest)
  | cs => (10, cs)

/-- A sign, and the rest. -/
def readSign : List Char → Bool × List Char
  | '-' :: rest => (true, rest)
  | '+' :: rest => (false, rest)
  | cs => (false, cs)

/-- The integer with the given text. The name of a kind is only looked for behind the digits that
follow the sign without interruption, which the mark of base two does not interrupt, because it is
written with digits of base sixteen; the marks of the bases eight and sixteen do. -/
def Integer.read? (cs : List Char) : Option Integer :=
  let (negative, cs) := readSign cs
  let (front, back) := cs.span isDigitPart
  let (body, kind?) :=
    match IntegerKind.ofName? back with
    | some kind => (front, some kind)
    | none => (cs, none)
  let (base, digits) := readBase body
  (readDigits? base digits).map fun magnitude => ⟨negative, magnitude, kind?⟩

/-- The natural number below `2 ^ bits` that an integer is. If the integer names a kind, it has to
be the one of these numbers. -/
def Integer.toNat? (bits : Nat) (i : Integer) : Option Nat :=
  let kind : IntegerKind := ⟨false, bits⟩
  if i.kind?.all (· = kind) && kind.contains i.negative i.magnitude then some i.magnitude else none

/-- Whether an integer is in the range of its kind, or of the largest one if it names none. -/
def Integer.isInRange (i : Integer) : Bool :=
  (i.kind?.getD ⟨i.negative, 64⟩).contains i.negative i.magnitude

/-! ## Numbers with a fraction -/

/-- Whether a character can be part of a number with a fraction. -/
def isFractionPart (c : Char) : Bool := c.isDigit || ['e', 'E', '.', '+', '-', '_'].contains c

/-- The characters without underscores, each of which has to follow a digit, an exponent mark or
another underscore. -/
def dropUnderscores? (allowed : Bool) : List Char → Option (List Char)
  | [] => some []
  | '_' :: rest => if allowed then dropUnderscores? allowed rest else none
  | c :: rest =>
    let allowed := c.isDigit || c = 'e' || c = 'E' || (c ≠ '.' && allowed)
    (dropUnderscores? allowed rest).map (c :: ·)

/-- The single-precision number with the given text, which may end in the name of its kind. -/
def readFraction? (kind : String) (cs : List Char) : Option Single :=
  let named (word : String) : Bool := cs = word.toList || cs = (word ++ kind).toList
  if named "inf" || named "+inf" then some .infinity
  else if named "-inf" then some (.neg .infinity)
  else if named "NaN" || named "+NaN" then some .nan
  else if named "-NaN" then some (.neg .nan)
  else
    let (body, rest) := cs.span isFractionPart
    if rest = [] ∨ rest = kind.toList then (dropUnderscores? false body).bind Number.readSingle?
    else none

/-- The single-precision number with the given text. -/
def readSingle? (cs : List Char) : Option Single := readFraction? "f32" cs

/-- Whether a text is a number of some kind. An integer beyond the range of all kinds counts as a
number with a fraction. -/
def isNumber (cs : List Char) : Bool :=
  (Integer.read? cs).any Integer.isInRange ||
    ["f32", "f64"].any fun kind => (readFraction? kind cs).isSome

end MaterialViewer.Notation
