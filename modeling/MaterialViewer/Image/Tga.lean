import MaterialViewer.Image.Basic
import MaterialViewer.Image.BitField
import MaterialViewer.Image.Bytes

/-!
# Targa files

A header, an optional remark, an optional color map, and pixels that are written out or in packets.
A packet is a count below 128 with as many and one pixels, or a count from 128 on with one pixel
that repeats. Rows go from the bottom and to the right unless the header says otherwise. A color has
blue first, with a byte for each channel or with five bits in two bytes.
-/

namespace MaterialViewer.Tga

open Bytes

/-- What the header says. -/
structure Header where
  /-- The bytes of a remark between the header and the color map. -/
  remark : Nat
  /-- Whether there is a color map. -/
  hasMap : Bool
  /-- The kind of pixels: one to three, with eight more when they are in packets. -/
  kind : Nat
  /-- The index of the first entry of the color map. -/
  mapStart : Nat
  /-- The number of entries of the color map. -/
  mapLength : Nat
  /-- The number of bits of an entry of the color map. -/
  mapDepth : Nat
  /-- The number of pixels in a row. -/
  width : Nat
  /-- The number of rows. -/
  height : Nat
  /-- The number of bits of a pixel. -/
  depth : Nat
  /-- The number of bits of a color that are alpha. -/
  alphaBits : Nat
  /-- Whether the first row is the one on top. -/
  topDown : Bool
  /-- Whether the first pixel of a row is the one on the right. -/
  rightToLeft : Bool

/-- How colors are written. -/
inductive Layout
  /-- A byte for each of so many channels. -/
  | bytes (channels : Nat)
  /-- Five bits each for red, green and blue. -/
  | fives
deriving DecidableEq

/-- The number of samples of a pixel. -/
def Layout.channels : Layout → Nat
  | .bytes channels => channels
  | .fives => 3

/-- A file that is not well-formed. -/
def broken : ImageError := .undecodable "broken targa file"

namespace Header

/-- The header at the front of a file, and what follows it. -/
def read? (file : List UInt8) : Option (Header × List UInt8) := do
  let (bytes, rest) ← takeExact? 18 file
  let at_ (offset n : Nat) : Nat := little ((bytes.drop offset).take n)
  return ({
    remark := at_ 0 1
    hasMap := at_ 1 1 = 1
    kind := at_ 2 1
    mapStart := at_ 3 2
    mapLength := at_ 5 2
    mapDepth := at_ 7 1
    width := at_ 12 2
    height := at_ 14 2
    depth := at_ 16 1
    alphaBits := at_ 17 1 % 16
    topDown := at_ 17 1 / 32 % 2 = 1
    rightToLeft := at_ 17 1 / 16 % 2 = 1 }, rest)

/-- Whether pixels are indices into the color map. -/
def isMapped (h : Header) : Bool := h.kind = 1 || h.kind = 9

/-- Whether pixels are in packets. -/
def isPacked (h : Header) : Bool := [9, 10, 11].contains h.kind

/-- Whether pixels are colors, directly or by the color map. -/
def isColor (h : Header) : Bool := [1, 2, 9, 10].contains h.kind

/-- The number of bits of a color. -/
def colorDepth (h : Header) : Nat := if h.isMapped then h.mapDepth else h.depth

/-- The bytes of an entry of the color map. -/
def mapSize (h : Header) : Nat := (h.mapDepth + 7) / 8

/-- How colors are written, if in one of the ways that are read. -/
def layout? (h : Header) : Option Layout :=
  match h.isColor, h.alphaBits, h.colorDepth - h.alphaBits with
  | true, 0, 32 | true, 8, 24 => some (.bytes 4)
  | true, 0, 24 => some (.bytes 3)
  | true, 0, 15 | true, 0, 16 | true, 1, 15 => some .fives
  | false, 8, 8 => some (.bytes 2)
  | false, 0, 8 | false, 8, 0 => some (.bytes 1)
  | _, _, _ => none

/-- How colors are written, where the parts of the header go together. -/
def layout (h : Header) : Except ImageError Layout := do
  if h.width = 0 ∨ h.height = 0 then throw broken
  if h.isMapped then
    if !(h.hasMap && [8, 16].contains h.depth) then throw broken
    if h.mapDepth < h.depth then throw (.unsupported "size of an index")
  if h.colorDepth < h.alphaBits then throw broken
  match h.layout? with
  | some layout => return layout
  | none => throw (.unsupported "depth of a color")

end Header

/-- `count` pixels of `size` bytes out of packets. Of a packet that has more, the first ones are
taken. -/
def unpack? (size count : Nat) (bytes : List UInt8) : Option (List (List UInt8)) :=
  go (bytes.length + 1) count bytes
where
  /-- Every packet takes at least the byte of its count, so `fuel` packets are enough. -/
  go : Nat → Nat → List UInt8 → Option (List (List UInt8))
    | _, 0, _ => some []
    | 0, _ + 1, _ | _, _ + 1, [] => none
    | fuel + 1, wanted@(_ + 1), packet :: rest => do
      let run := min wanted (packet.toNat % 128 + 1)
      let (pixels, rest) ←
        if packet.toNat ≥ 128 then
          (takeExact? size rest).map fun (pixel, rest) => (List.replicate run pixel, rest)
        else
          (takeExact? (run * size) rest).map fun (raw, rest) => (pieces size raw, rest)
      return pixels ++ (← go fuel (wanted - run) rest)

/-- The samples of a color, with red first. -/
def Layout.samples (layout : Layout) (color : List UInt8) : List UInt8 :=
  match layout, color with
  | .fives, _ => BitField.fives.map fun field => field.sample (little color)
  | .bytes _, blue :: green :: red :: rest => red :: green :: blue :: rest
  | .bytes _, _ => color

/-- The samples of all pixels, row by row from the top. -/
def Header.samples? (h : Header) (layout : Layout) (bytes : List UInt8) : Option (List UInt8) := do
  let bytes := bytes.drop h.remark
  let map ← if h.hasMap then pieces? h.mapSize h.mapLength bytes else some []
  let bytes := bytes.drop (h.mapSize * map.length)
  let size := (h.depth + 7) / 8
  let count := h.width * h.height
  let pixels ← if h.isPacked then unpack? size count bytes else pieces? size count bytes
  let colors ← if h.isMapped then pixels.mapM fun index => do
      guard (h.mapStart ≤ little index)
      map[little index - h.mapStart]?
    else some pixels
  let rows ← pieces? h.width h.height (colors.map layout.samples)
  let rows := if h.topDown then rows else rows.reverse
  return (if h.rightToLeft then rows.map List.reverse else rows).flatten.flatten

/-- The image in a targa file. -/
def decode (file : List UInt8) : Except ImageError Image := do
  let some (h, rest) := Header.read? file | throw broken
  let layout ← h.layout
  if Image.maxBytes < h.width * h.height * layout.channels then throw broken
  match h.samples? layout rest with
  | some samples => return ⟨h.width, h.height, layout.channels, .bytes samples⟩
  | none => throw broken

end MaterialViewer.Tga
