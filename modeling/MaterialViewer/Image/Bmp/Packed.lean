import MaterialViewer.Image.Bytes

/-!
# Packed rows of a bitmap

The rows of a packed bitmap are written as instructions: a run of one or two indices in turn, a list
of indices, a step to the right and upwards, the end of a row, or the end of the picture. Pixels
that no instruction writes have no index.
-/

namespace MaterialViewer.Bmp

open Bytes

/-- What comes next in a packed bitmap. -/
inductive Instruction
  /-- The rest of the row has no index. -/
  | endRow
  /-- The rest of the picture has no index. -/
  | endPicture
  /-- Go on further right and further up. -/
  | skip (right up : Nat)
  /-- The indices of the next pixels. -/
  | indices (values : List Nat)

/-- The first instruction and the rest. A count of zero marks the instructions other than runs; the
bytes of a list of indices are filled up to an even number. -/
def readInstruction? (depth : Nat) : List UInt8 → Option (Instruction × List UInt8)
  | 0 :: 0 :: rest => some (.endRow, rest)
  | 0 :: 1 :: rest => some (.endPicture, rest)
  | 0 :: 2 :: right :: up :: rest => some (.skip right.toNat up.toNat, rest)
  | [0, 2] | [0, 2, _] => none
  | 0 :: count :: rest => do
    let size := (count.toNat * depth + 7) / 8
    let (bytes, rest) ← takeExact? (size + size % 2) rest
    return (.indices ((bytes.flatMap (bitGroups depth)).take count.toNat), rest)
  | count :: value :: rest =>
    let values := (List.replicate count.toNat value).flatMap (bitGroups depth)
    some (.indices (values.take count.toNat), rest)
  | _ => none

/-- A row filled up with pixels without index. -/
def fillRow (width : Nat) (row : List (Option Nat)) : List (Option Nat) :=
  row ++ List.replicate (width - row.length) none

/-- The next `count` rows, of which `row` is what is written of the first one, up to the column
`column`. Indices beyond the end of a row are dropped, but a step must not lead out of the picture.
Every instruction takes at least one byte, so `fuel` instructions are enough. -/
def unpackRows? (depth width : Nat) : Nat → Nat → List (Option Nat) → Nat → List UInt8 →
    Option (List (List (Option Nat)))
  | _, 0, _, _, _ => some []
  | 0, _ + 1, _, _, _ => none
  | fuel + 1, count + 1, row, column, bytes => do
    let (instruction, rest) ← readInstruction? depth bytes
    match instruction with
    | .endPicture => return fillRow width row :: List.replicate count (fillRow width [])
    | .endRow => return fillRow width row :: (← unpackRows? depth width fuel count [] 0 rest)
    | .indices values =>
      unpackRows? depth width fuel (count + 1) ((row ++ values.map some).take width)
        (column + values.length) rest
    | .skip right 0 =>
      guard (row.length + right ≤ width)
      unpackRows? depth width fuel (count + 1) (row ++ List.replicate right none) (column + right)
        rest
    | .skip right (up + 1) =>
      guard (up < count ∧ column + right ≤ width)
      let others ← unpackRows? depth width fuel (count - up)
        (List.replicate (column + right) none) (column + right) rest
      return fillRow width row :: (List.replicate up (fillRow width []) ++ others)

end MaterialViewer.Bmp
