/-!
# Numbers in bytes

Readers of binary headers. A reader takes bytes from the front of a list and gives the rest; it
fails when the list is too short.
-/

namespace MaterialViewer.Bytes

/-- The first `n` elements and the rest, if there are as many. -/
def takeExact? {α : Type} (n : Nat) (bytes : List α) : Option (List α × List α) :=
  if (bytes.take n).length = n then some (bytes.splitAt n) else none

/-- The number that bytes write, the lowest byte first. -/
def little : List UInt8 → Nat
  | [] => 0
  | b :: rest => b.toNat + 256 * little rest

/-- The number that bytes write, the highest byte first. -/
def big (bytes : List UInt8) : Nat := bytes.foldl (fun n b => 256 * n + b.toNat) 0

/-- The number in `n` bytes from the front, the lowest first. -/
def readLittle? (n : Nat) (bytes : List UInt8) : Option (Nat × List UInt8) :=
  (takeExact? n bytes).map fun (digits, rest) => (little digits, rest)

/-- The number in `n` bytes from the front, the highest first. -/
def readBig? (n : Nat) (bytes : List UInt8) : Option (Nat × List UInt8) :=
  (takeExact? n bytes).map fun (digits, rest) => (big digits, rest)

/-- The number in the `n` bytes at an offset, the lowest first. -/
def littleAt? (offset n : Nat) (bytes : List UInt8) : Option Nat :=
  (readLittle? n (bytes.drop offset)).map (·.1)

/-- Two's complement in 32 bits. -/
def signed32 (n : Nat) : Int := if n < Nat.pow 2 31 then n else (n : Int) - Nat.pow 2 32

/-- The first `count` pieces of `size` elements each, if there are as many. -/
def pieces? {α : Type} (size : Nat) : Nat → List α → Option (List (List α))
  | 0, _ => some []
  | count + 1, items => do
    let (piece, rest) ← takeExact? size items
    return piece :: (← pieces? size count rest)

/-- The pieces of `size` elements each, as many as the list has in full. -/
def pieces {α : Type} (size : Nat) (items : List α) : List (List α) :=
  (pieces? size (items.length / size) items).getD []

/-- The bits of a byte in groups of `depth`, the highest first. -/
def bitGroups (depth : Nat) (b : UInt8) : List Nat :=
  (List.range (8 / depth)).map fun i =>
    b.toNat / Nat.pow 2 (8 - depth * (i + 1)) % Nat.pow 2 depth

end MaterialViewer.Bytes
