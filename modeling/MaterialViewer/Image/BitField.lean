/-!
# Bit fields

A pixel may hold its channels in runs of bits of its number. A bit field says which bits those are;
its sample is the number in them, stretched to eight bits.
-/

namespace MaterialViewer

/-- A run of bits of a number. -/
structure BitField where
  /-- The number of bits below the run. -/
  shift : Nat
  /-- The number of bits of the run. -/
  width : Nat
deriving DecidableEq

namespace BitField

/-- The number in a field, stretched to eight bits, to the nearest. A field without bits holds
zero. -/
def sample (f : BitField) (number : Nat) : UInt8 :=
  let greatest := Nat.pow 2 f.width - 1
  UInt8.ofNat ((number / Nat.pow 2 f.shift % Nat.pow 2 f.width * 510 + greatest) / (2 * greatest))

/-- The mask with the bits of a field set. -/
def mask (f : BitField) : Nat := (Nat.pow 2 f.width - 1) * Nat.pow 2 f.shift

/-- The eight highest bits of a field, or all if there are not more. -/
def highByte (f : BitField) : BitField := ⟨f.shift + (f.width - 8), min f.width 8⟩

/-- The field with a mask in a number of `depth` bits, cut to its eight highest bits. The bits of a
mask have to stand side by side; an empty mask is a field without bits. -/
def ofMask? (depth mask : Nat) : Option BitField :=
  if mask = 0 then some ⟨0, 0⟩
  else
    let shift := ((List.range depth).takeWhile fun i => !mask.testBit i).length
    let width := ((List.range' shift (depth - shift)).takeWhile mask.testBit).length
    let field : BitField := ⟨shift, width⟩
    if field.mask = mask then some field.highByte else none

/-- Red, green and blue with five bits each, blue lowest. -/
def fives : List BitField := [⟨10, 5⟩, ⟨5, 5⟩, ⟨0, 5⟩]

/-- Red, green and blue with a byte each, blue lowest. -/
def bytes : List BitField := [⟨16, 8⟩, ⟨8, 8⟩, ⟨0, 8⟩]

theorem sample_byte (number : Nat) : sample ⟨0, 8⟩ number = UInt8.ofNat (number % 256) := by
  simp only [sample, show Nat.pow 2 8 = 256 from rfl, show Nat.pow 2 0 = 1 from rfl]
  congr 1
  omega

end BitField

end MaterialViewer
