import MaterialViewer.Number.Single
import MaterialViewer.Number.Integer
import MaterialViewer.Text.Blank

/-!
# Decimal text of single-precision numbers

Reading rounds the written decimal to the nearest single. Writing starts from the shortest decimal
that reads back: among the decimals with the fewest digits that round to the number, the nearest.
The digits are then laid out in one of three ways:

* `plainText`: positional at any size, `1`, `0.0000001`;
* `exactText`: always with a fraction, positional for magnitudes from `1e-4` below `1e16`,
  otherwise with an exponent, `1.0`, `1e-7`;
* `fixedText`: a fixed number of places after the point, a tie to the even last digit.
-/

namespace MaterialViewer.Number

open Text (dropEndWhile)

/-- The decimal number `digits · 10 ^ exponent`. -/
structure Decimal where
  /-- All digits, read as one natural number. -/
  digits : Nat
  /-- The power of ten of the last digit. -/
  exponent : Int
deriving DecidableEq

namespace Decimal

/-- The single nearest to a decimal. A decimal of more than sixty places before or after the point
is beyond the range, whatever its digits. -/
def toSingle (negative : Bool) (d : Decimal) : Single :=
  if d.digits = 0 then .ofMagnitude negative 0
  else if d.exponent + (natText d.digits).length > 60 then
    .ofMagnitude negative Single.infiniteMagnitude
  else if d.exponent + (natText d.digits).length < -60 then .ofMagnitude negative 0
  else .ofRatio negative (d.digits * Nat.pow 10 d.exponent.toNat) (Nat.pow 10 (-d.exponent).toNat)

/-- The exact value of a finite single, without its sign. -/
def ofSingle (x : Single) : Decimal :=
  if x.scale < 0 then ⟨x.mantissa * Nat.pow 5 (-x.scale).toNat, x.scale⟩
  else ⟨x.mantissa * Nat.pow 2 x.scale.toNat, 0⟩

/-- The two decimals around `d` that have `count` digits, the nearer first, and the upper first in
a tie. A decimal that has no more digits than that stands for itself. -/
def neighbours (d : Decimal) (count : Nat) : List Decimal :=
  let excess := (natText d.digits).length - count
  if excess = 0 then [d]
  else
    let unit := Nat.pow 10 excess
    let below : Decimal := ⟨d.digits / unit, d.exponent + excess⟩
    let above : Decimal := ⟨d.digits / unit + 1, d.exponent + excess⟩
    if 2 * (d.digits % unit) < unit then [below, above] else [above, below]

/-- The decimals of one to nine digits around `d`, in order of preference. -/
def candidates (d : Decimal) : List Decimal :=
  [1, 2, 3, 4, 5, 6, 7, 8, 9].flatMap d.neighbours

/-- The shortest decimal that reads back as the magnitude of `x`, and the nearest of those. -/
def shortest (x : Single) : Decimal :=
  let exact := ofSingle x
  (exact.candidates.find? fun d => (d.toSingle x.isNegative) = x).getD exact

end Decimal

/-! ## Reading -/

/-- The digits that a text starts with, and the rest. -/
def spanDigits (cs : List Char) : List Char × List Char := cs.span Char.isDigit

/-- An exponent with an optional sign. -/
def readExponent? (cs : List Char) : Option Int :=
  match cs with
  | '-' :: rest => (digits? rest).map fun n => -(n : Int)
  | '+' :: rest => (digits? rest).map fun n => (n : Int)
  | _ => (digits? cs).map fun n => (n : Int)

/-- An unsigned decimal: digits with an optional point, at least one digit in all, and an optional
exponent. -/
def readDecimal? (cs : List Char) : Option Decimal :=
  let (whole, rest) := spanDigits cs
  let (fraction, rest) :=
    match rest with
    | '.' :: more => spanDigits more
    | _ => ([], rest)
  (digits? (whole ++ fraction)).bind fun digits =>
    match rest with
    | [] => some ⟨digits, -(fraction.length : Int)⟩
    | c :: more =>
      if c = 'e' ∨ c = 'E' then
        (readExponent? more).map fun e => ⟨digits, e - fraction.length⟩
      else none

/-- The names of numbers that have no digits, in any case of letters. -/
def readNamed? (negative : Bool) (cs : List Char) : Option Single :=
  let name := cs.map Char.toLower
  if name = "inf".toList ∨ name = "infinity".toList then
    some (.ofMagnitude negative Single.infiniteMagnitude)
  else if name = "nan".toList then some (.ofMagnitude negative Single.nan.magnitude)
  else none

/-- A number without its sign, which is given. -/
def readUnsigned? (negative : Bool) (cs : List Char) : Option Single :=
  ((readDecimal? cs).map (Decimal.toSingle negative)).or (readNamed? negative cs)

/-- A single, written as a decimal or by name, with an optional sign. -/
def readSingle? (cs : List Char) : Option Single :=
  match cs with
  | '-' :: rest => readUnsigned? true rest
  | '+' :: rest => readUnsigned? false rest
  | _ => readUnsigned? false cs

/-! ## Writing -/

/-- The digits of a decimal without trailing zeros, and the number of digits before the point. Zero
has no digits. -/
def significand (d : Decimal) : List Char × Int :=
  if d.digits = 0 then ([], 0)
  else
    let all := natText d.digits
    (dropEndWhile (· = '0') all, d.exponent + all.length)

/-- Digits written positionally, with the point after `point` of them, and at least `places` digits
after the point. No point is written when no digit follows it. -/
def positional (digits : List Char) (point : Int) (places : Nat) : List Char :=
  let whole := (digits ++ List.replicate (point.toNat - digits.length) '0').take point.toNat
  let fraction := List.replicate (-point).toNat '0' ++ digits.drop point.toNat
  let fraction := fraction ++ List.replicate (places - fraction.length) '0'
  (if whole = [] then ['0'] else whole) ++ (if fraction = [] then [] else '.' :: fraction)

/-- Digits written with one digit before the point and an exponent. -/
def scientific (digits : List Char) (point : Int) : List Char :=
  let e := point - 1
  positional digits 1 0 ++ 'e' :: (if e < 0 then ['-'] else []) ++ natText e.natAbs

/-- The text of a number around the layout `finite` of its finite magnitude. -/
def signedText (finite : Single → List Char) (x : Single) : List Char :=
  if x.isNaN then "NaN".toList
  else
    (if x.isNegative then ['-'] else []) ++
      (if x.isInfinite then "inf".toList else finite x)

/-- Whether a magnitude is written with an exponent: it is not zero and below `1e-4`, or at least
`1e16`. The two bounds are the singles nearest to these numbers. -/
def needsExponent (x : Single) : Bool :=
  !x.isZero && (x.magnitude < (Decimal.toSingle false ⟨1, -4⟩).magnitude ||
    x.magnitude ≥ (Decimal.toSingle false ⟨1, 16⟩).magnitude)

/-- The shortest text that reads back, positional at any size: `1`, `-0.5`, `0.0000001`. -/
def plainText (x : Single) : List Char :=
  signedText
    (fun x =>
      let (digits, point) := significand (.shortest x)
      positional digits point 0)
    x

/-- The shortest text that reads back and shows that numbers may be fractional: `1.0`, `-0.5`,
`1e-7`. -/
def exactText (x : Single) : List Char :=
  signedText
    (fun x =>
      let (digits, point) := significand (.shortest x)
      if needsExponent x then scientific digits point else positional digits point 1)
    x

/-- The text with `places` digits after the point, a tie to the even last digit. -/
def fixedText (places : Nat) (x : Single) : List Char :=
  signedText
    (fun x =>
      let exact := Decimal.ofSingle x
      let shift := exact.exponent + places
      let scaled :=
        Single.divToEven (exact.digits * Nat.pow 10 shift.toNat) (Nat.pow 10 (-shift).toNat)
      let digits := natText scaled
      let digits := List.replicate (places + 1 - digits.length) '0' ++ digits
      positional digits ((digits.length : Int) - places) places)
    x

end MaterialViewer.Number
