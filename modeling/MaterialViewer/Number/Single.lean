/-!
# Single-precision numbers

A `Single` is a binary32 number, held as its bits. A finite one has the value
`mantissa · 2 ^ scale`, up to its sign. `Single.ofRatio` rounds a quotient of naturals to the
nearest single, a tie to the even mantissa; all work is exact arithmetic on naturals.

Two notions of equality are kept apart: `=` compares bits, and `sameNumber` compares numbers, for
which the two zeros are equal and a NaN equals nothing.
-/

namespace MaterialViewer

/-- A binary32 floating-point number. -/
structure Single where
  /-- Sign bit, eight bits of exponent, twenty-three bits of fraction. -/
  bits : UInt32
deriving DecidableEq, Hashable

namespace Single

/-- The number zero, with positive sign. -/
def zero : Single := ⟨0⟩

/-- The number one. -/
def one : Single := ⟨0x3F800000⟩

/-- Positive infinity. -/
def infinity : Single := ⟨0x7F800000⟩

/-- A quiet NaN. -/
def nan : Single := ⟨0x7FC00000⟩

instance : Inhabited Single := ⟨zero⟩

/-- Whether the sign bit is set. -/
def isNegative (x : Single) : Bool := x.bits.toNat ≥ Nat.pow 2 31

/-- The bits without the sign. They order the magnitudes of the numbers that are not NaN. -/
def magnitude (x : Single) : Nat := x.bits.toNat % Nat.pow 2 31

/-- The magnitude of infinity; a larger one is a NaN. -/
def infiniteMagnitude : Nat := 255 * Nat.pow 2 23

/-- Whether `x` is not a number. -/
def isNaN (x : Single) : Bool := x.magnitude > infiniteMagnitude

/-- Whether `x` is an infinity. -/
def isInfinite (x : Single) : Bool := x.magnitude = infiniteMagnitude

/-- Whether `x` is neither an infinity nor a NaN. -/
def isFinite (x : Single) : Bool := x.magnitude < infiniteMagnitude

/-- Whether `x` is one of the two zeros. -/
def isZero (x : Single) : Bool := x.magnitude = 0

/-- The number with the given sign and magnitude bits. -/
def ofMagnitude (negative : Bool) (magnitude : Nat) : Single :=
  ⟨UInt32.ofNat (if negative then magnitude + Nat.pow 2 31 else magnitude)⟩

/-- The integer mantissa of a finite number. -/
def mantissa (x : Single) : Nat :=
  if x.magnitude < Nat.pow 2 23 then x.magnitude else x.magnitude % Nat.pow 2 23 + Nat.pow 2 23

/-- The power of two by which the mantissa of a finite number is scaled. -/
def scale (x : Single) : Int :=
  if x.magnitude < Nat.pow 2 23 then -149 else (x.magnitude / Nat.pow 2 23 : Nat) - 150

/-- The number with the opposite sign. -/
def neg (x : Single) : Single := ofMagnitude (!x.isNegative) x.magnitude

/-- Equality as numbers: the zeros are equal, and a NaN differs from everything. -/
def sameNumber (x y : Single) : Bool :=
  !x.isNaN && !y.isNaN && (x.bits = y.bits || (x.isZero && y.isZero))

/-- The position of a number that is not NaN in the order of the reals. -/
def orderKey (x : Single) : Int := if x.isNegative then -(x.magnitude : Int) else x.magnitude

/-- Less than, as numbers; false when either is NaN. -/
def lt (x y : Single) : Bool := !x.isNaN && !y.isNaN && decide (x.orderKey < y.orderKey)

/-- The quotient `num / den` rounded to the nearest natural, a tie to the even one. -/
def divToEven (num den : Nat) : Nat :=
  let q := num / den
  let twice := 2 * (num % den)
  if twice > den ∨ (twice = den ∧ q % 2 = 1) then q + 1 else q

/-- The largest `e` with `2 ^ e ≤ num / den`, for positive `num` and `den`. -/
def binaryExponent (num den : Nat) : Int :=
  let e : Int := (Nat.log2 num : Int) - Nat.log2 den
  if den * Nat.pow 2 e.toNat ≤ num * Nat.pow 2 (-e).toNat then e else e - 1

/-- The single nearest to the quotient `num / den`, a tie to the even mantissa, with the given
sign. A quotient beyond the range gives an infinity. -/
def ofRatio (negative : Bool) (num den : Nat) : Single :=
  if num = 0 ∨ den = 0 then ofMagnitude negative 0
  else
    let q := max (binaryExponent num den - 23) (-149)
    let m := divToEven (num * Nat.pow 2 (-q).toNat) (den * Nat.pow 2 q.toNat)
    ofMagnitude negative (min ((q + 149).toNat * Nat.pow 2 23 + m) infiniteMagnitude)

/-- The single nearest to an integer. -/
def ofInt (i : Int) : Single := ofRatio (i < 0) i.natAbs 1

/-- The single nearest to a natural number. -/
def ofNat (n : Nat) : Single := ofRatio false n 1

/-- The machine number with the same bits, for arithmetic. -/
def toMachine (x : Single) : Float32 := Float32.ofBits x.bits

/-- The single with the bits of a machine number. -/
def ofMachine (x : Float32) : Single := ⟨x.toBits⟩

end Single

end MaterialViewer
