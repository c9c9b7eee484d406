import MaterialViewer.Image.Basic
import MaterialViewer.Image.BitField
import MaterialViewer.Image.Bmp.Packed

/-!
# Bitmap files

A file header with the place of the pixels, a header of one of six sizes, masks or a palette where
the kind of pixels needs them, and rows of pixels, from the bottom unless the height is negative. A
pixel is an index into the palette, or a number with the channels in bit fields. Each row is filled
up to a multiple of four bytes; rows of indices may also be packed.
-/

namespace MaterialViewer.Bmp

open Bytes

/-- How pixels are written. -/
inductive Encoding
  /-- Indices into a palette whose colors have red first, in packed rows or plain ones. -/
  | indices (palette : List (List UInt8)) (isPacked : Bool)
  /-- Numbers with a bit field for each channel. -/
  | fields (channels : List BitField)

/-- What the headers say. -/
structure Header where
  /-- The number of pixels in a row. -/
  width : Nat
  /-- The number of rows. -/
  height : Nat
  /-- Whether the first row is the one on top. -/
  topDown : Bool
  /-- The number of bits of a pixel. -/
  depth : Nat
  /-- Where the pixels start in the file. -/
  offset : Nat
  /-- How the pixels are written. -/
  encoding : Encoding

/-- A file that is not well-formed. -/
def broken : ImageError := .undecodable "broken bitmap"

/-- The number in `n` bytes at an offset. -/
def numberAt (file : List UInt8) (offset n : Nat) : Except ImageError Nat :=
  match littleAt? offset n file with
  | some number => .ok number
  | none => .error broken

/-- Succeeds if the condition holds. -/
def require (condition : Bool) : Except ImageError Unit :=
  if condition then .ok () else .error broken

/-- Nothing can be done with a picture without pixels. -/
def requirePixels (width height : Nat) : Except ImageError Unit :=
  if width = 0 ∨ height = 0 then .error (.unsupported "size of the bitmap") else .ok ()

/-- The palette after a header: `used` colors, or as many as there are indices if that is zero. A
color has blue first, and a byte more unless the header is the brief one. -/
def readPalette (file : List UInt8) (headerSize depth used : Nat) :
    Except ImageError (List (List UInt8)) := do
  require (used ≤ Nat.pow 2 depth)
  match pieces? (if headerSize = 12 then 3 else 4) (if used = 0 then Nat.pow 2 depth else used)
      (file.drop (14 + headerSize)) with
  | some colors => return colors.map fun color => (color.take 3).reverse
  | none => throw broken

/-- The bit fields that are given by masks after the first forty bytes of a header. Alpha has a mask
only in the larger headers, and no channel if that mask is empty; the other masks must not be. -/
def readMasks (file : List UInt8) (headerSize depth : Nat) : Except ImageError (List BitField) := do
  let colors ← [54, 58, 62].mapM fun offset => numberAt file offset 4
  let alpha ← if headerSize ≥ 56 then numberAt file 66 4 else pure 0
  require (colors.all (· ≠ 0))
  match (if alpha = 0 then colors else colors ++ [alpha]).mapM (BitField.ofMask? depth) with
  | some fields => return fields
  | none => throw broken

/-- How pixels are written, by the number of the compression and the number of bits. -/
def readEncoding (file : List UInt8) (headerSize compression depth used : Nat) :
    Except ImageError Encoding :=
  match compression, depth with
  | 0, 1 | 0, 2 | 0, 4 | 0, 8 => return .indices (← readPalette file headerSize depth used) false
  | 0, 16 => return .fields BitField.fives
  | 0, 24 | 0, 32 => return .fields BitField.bytes
  | 1, 8 | 2, 4 => return .indices (← readPalette file headerSize depth used) true
  | 3, 16 | 3, 32 => return .fields (← readMasks file headerSize depth)
  | _, _ => throw broken

/-- The brief header, of twelve bytes. -/
def readBrief (file : List UInt8) (offset : Nat) : Except ImageError Header := do
  let width ← numberAt file 18 2
  let height ← numberAt file 20 2
  requirePixels width height
  require ((← numberAt file 22 2) = 1)
  let depth ← numberAt file 24 2
  require ([1, 4, 8, 24].contains depth)
  return ⟨width, height, false, depth, offset, ← readEncoding file 12 0 depth 0⟩

/-- The codes of compressions that are known but not read. -/
def foreignCompressions : List Nat := [4, 5, 11, 12, 13]

/-- A header of at least forty bytes. A picture that starts on top is not packed. -/
def readLong (file : List UInt8) (headerSize offset : Nat) : Except ImageError Header := do
  let width := signed32 (← numberAt file 18 4)
  let height := signed32 (← numberAt file 22 4)
  require (0 ≤ width ∧ width < Nat.pow 2 16 ∧ -Nat.pow 2 31 < height ∧ height < Nat.pow 2 16)
  requirePixels width.toNat height.natAbs
  require ((← numberAt file 26 2) = 1)
  let depth ← numberAt file 28 2
  let compression ← numberAt file 30 4
  require (0 < height ∨ compression = 0 ∨ compression = 3)
  if foreignCompressions.contains compression then throw (.unsupported "compression of the bitmap")
  let used ← numberAt file 46 4
  let _ ← numberAt file 50 4
  return ⟨width.toNat, height.natAbs, height < 0, depth, offset,
    ← readEncoding file headerSize compression depth used⟩

/-- The headers of a file. -/
def readHeader (file : List UInt8) : Except ImageError Header := do
  require (file.take 2 = [0x42, 0x4D])
  let offset ← numberAt file 10 4
  let headerSize ← numberAt file 14 4
  if headerSize = 12 then readBrief file offset
  else if [40, 52, 56, 108, 124].contains headerSize then readLong file headerSize offset
  else if headerSize < 12 then throw broken
  else throw (.unsupported "header of the bitmap")

namespace Header

/-- The number of samples of a pixel. -/
def channels (h : Header) : Nat :=
  match h.encoding with
  | .indices _ _ => 3
  | .fields channels => channels.length

/-- The plain rows of a picture. -/
def plainRows? (h : Header) (bytes : List UInt8) : Option (List (List UInt8)) :=
  pieces? ((h.width * h.depth + 31) / 32 * 4) h.height bytes

/-- The samples of each row, in the order of the file. -/
def readRows? (h : Header) (bytes : List UInt8) : Option (List (List UInt8)) :=
  match h.encoding with
  | .indices palette isPacked =>
    let color (index : Option Nat) : List UInt8 := (index.bind (palette[·]?)).getD [0, 0, 0]
    let rows? := if isPacked then unpackRows? h.depth h.width bytes.length h.height [] 0 bytes
      else (h.plainRows? bytes).map fun rows => rows.map fun row =>
        ((row.flatMap (bitGroups h.depth)).take h.width).map some
    rows?.map fun rows => rows.map fun row => row.flatMap color
  | .fields channels =>
    (h.plainRows? bytes).map fun rows => rows.map fun row =>
      ((pieces (h.depth / 8) row).take h.width).flatMap fun pixel =>
        channels.map fun field => field.sample (little pixel)

end Header

/-- The image in a bitmap file. -/
def decode (file : List UInt8) : Except ImageError Image := do
  let h ← readHeader file
  require (h.width * h.height * h.channels ≤ Image.maxBytes)
  match h.readRows? (file.drop h.offset) with
  | some rows =>
    let samples := (if h.topDown then rows else rows.reverse).flatten
    return ⟨h.width, h.height, h.channels, .bytes samples⟩
  | none => throw broken

end MaterialViewer.Bmp
