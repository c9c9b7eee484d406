import MaterialViewer.Image.Basic
import MaterialViewer.Image.Png.Chunk
import MaterialViewer.Image.Png.Deflate
import MaterialViewer.Image.Png.Interlace

/-!
# PNG files

The chunks of a file give its header, a palette, which colors are transparent, and a compressed
stream of rows, in one pass or in seven. The stream has one byte before each row that says from
which neighbours its bytes are predicted.
-/

namespace MaterialViewer.Png

open Bytes

/-! ## Header -/

/-- What the header says. -/
structure Header where
  /-- The number of pixels in a row. -/
  width : Nat
  /-- The number of rows. -/
  height : Nat
  /-- The number of bits of a sample. -/
  depth : Nat
  /-- The kind of pixels: gray, color, palette index, gray with alpha or color with alpha. -/
  kind : Nat
  /-- Whether the pixels come in seven passes. -/
  isInterlaced : Bool

namespace Header

/-- The number of samples of a pixel as it is stored. -/
def channels (h : Header) : Nat :=
  match h.kind with
  | 2 => 3
  | 4 => 2
  | 6 => 4
  | _ => 1

/-- Whether pixels are palette indices. -/
def isIndexed (h : Header) : Bool := h.kind = 3

/-- Whether pixels are gray or colors, with no alpha of their own. -/
def isPlain (h : Header) : Bool := h.kind = 0 || h.kind = 2

/-- The depths in which a kind of pixels may be stored. -/
def depthsOf : Nat → List Nat
  | 0 => [1, 2, 4, 8, 16]
  | 3 => [1, 2, 4, 8]
  | 2 | 4 | 6 => [8, 16]
  | _ => []

/-- The header in the content of its chunk. -/
def read? (data : List UInt8) : Option Header := do
  guard (data.length = 13)
  let (width, rest) ← readBig? 4 data
  let (height, rest) ← readBig? 4 rest
  match rest.map UInt8.toNat with
  | [depth, kind, 0, 0, interlaced] =>
    guard (0 < width ∧ 0 < height ∧ (depthsOf kind).contains depth ∧ interlaced ≤ 1)
    return ⟨width, height, depth, kind, interlaced = 1⟩
  | _ => none

/-- The width and the height of each pass. -/
def passSizes (h : Header) : List (Nat × Nat) :=
  if h.isInterlaced then Interlace.passes.map (·.size h.width h.height) else [(h.width, h.height)]

end Header

/-! ## Content of the chunks -/

/-- What the chunks after the header give. -/
structure Content where
  /-- The bytes of the palette. -/
  palette : Option (List UInt8) := none
  /-- Alpha for the colors of the palette, or the color that is transparent. -/
  transparency : Option (List UInt8) := none
  /-- The number of frames of an animation that are announced. -/
  frames : Nat := 0
  /-- The compressed stream. -/
  stream : List UInt8 := []

/-- Whether the content of a transparency chunk can be used: alpha for the colors of a palette that
is already there, or a color with two bytes for each sample. -/
def Content.acceptsTransparency (c : Content) (h : Header) (data : List UInt8) : Bool :=
  if h.isIndexed then c.palette.isSome && data.length ≤ 256
  else h.isPlain && 2 * h.channels ≤ data.length

/-- Whether the content of a frame chunk announces the picture itself as the next frame of an
animation: its number, the size of the whole picture at the corner, a delay, and two small numbers
for what becomes of the frame. -/
def announcesPicture (h : Header) (frames : Nat) (data : List UInt8) : Bool :=
  let words := (pieces 4 (data.take 20)).map big
  26 ≤ data.length && words = [frames, h.width, h.height, 0, 0] &&
    match (data.drop 24).map UInt8.toNat with
    | dispose :: blend :: _ => dispose ≤ 2 && blend ≤ 1
    | _ => false

/-- The content with one more chunk, if the chunk is in order. A transparency chunk that cannot be
used counts as absent, and of those that can be used the first counts. -/
def Content.add? (h : Header) (c : Content) (chunk : Chunk) : Option Content :=
  if chunk.isOf "IDAT" then some { c with stream := c.stream ++ chunk.data }
  else if chunk.isOf "PLTE" then
    let size := chunk.data.length
    if c.palette.isNone && 0 < size && size ≤ 768 && size % 3 = 0 then
      some { c with palette := some chunk.data }
    else none
  else if chunk.isOf "tRNS" then
    if c.transparency.isNone && c.acceptsTransparency h chunk.data then
      some { c with transparency := some chunk.data }
    else some c
  else if chunk.isOf "acTL" then if 8 ≤ chunk.data.length then some c else none
  else if chunk.isOf "fcTL" then
    if announcesPicture h c.frames chunk.data then some { c with frames := c.frames + 1 } else none
  else if chunk.isOf "fdAT" then none
  else if chunk.isOptional then some c
  else none

/-! ## Rows -/

/-- Which of the bytes on the left, above and above on the left is nearest to their trend. -/
def nearestNeighbour (left up corner : UInt8) : UInt8 :=
  let a : Int := left.toNat
  let b : Int := up.toNat
  let c : Int := corner.toNat
  let trend := a + b - c
  let far (x : Int) : Nat := (trend - x).natAbs
  if far a ≤ far b ∧ far a ≤ far c then left else if far b ≤ far c then up else corner

/-- What is added to a stored byte, by the number of the rule. -/
def predicted? (rule : Nat) (left up corner : UInt8) : Option UInt8 :=
  match rule with
  | 0 => some 0
  | 1 => some left
  | 2 => some up
  | 3 => some (UInt8.ofNat ((left.toNat + up.toNat) / 2))
  | 4 => some (nearestNeighbour left up corner)
  | _ => none

/-- The bytes of a row, given the row above it. `done` holds the bytes so far, the last first, and
`aboveDone` those above them. -/
def restoreRow? (rule step : Nat) (done aboveDone : List UInt8) :
    List UInt8 → List UInt8 → Option (List UInt8)
  | b :: rest, up :: above => do
    let left := (done[step - 1]?).getD 0
    let corner := (aboveDone[step - 1]?).getD 0
    let value := b + (← predicted? rule left up corner)
    restoreRow? rule step (value :: done) (up :: aboveDone) rest above
  | _, _ => some done.reverse

/-- The rows of a picture. `above` is the row before. -/
def restoreRows? (step : Nat) (above : List UInt8) : List (List UInt8) → Option (List (List UInt8))
  | [] => some []
  | [] :: _ => none
  | (rule :: row) :: rest => do
    let restored ← restoreRow? rule.toNat step [] [] row above
    return restored :: (← restoreRows? step restored rest)

/-- The samples of a row as numbers. -/
def rowSamples (h : Header) (width : Nat) (row : List UInt8) : List Nat :=
  if h.depth = 16 then (pieces 2 row).map big
  else (row.flatMap (bitGroups h.depth)).take (width * h.channels)

/-- The samples of a pixel as they are stored. -/
abbrev RawPixel := List Nat

/-- The rows of pixels of each pass. -/
def readPasses? (h : Header) :
    List (Nat × Nat) → List UInt8 → Option (List (List (List RawPixel)))
  | [], _ => some []
  | (width, height) :: sizes, stream => do
    let rowSize := (width * h.channels * h.depth + 7) / 8
    let step := max 1 (h.channels * h.depth / 8)
    let rows ← pieces? (rowSize + 1) height stream
    let restored ← restoreRows? step (List.replicate rowSize 0) rows
    let pixels := restored.map fun row => pieces h.channels (rowSamples h width row)
    return pixels :: (← readPasses? h sizes (stream.drop ((rowSize + 1) * height)))

/-! ## Pixels -/

/-- The samples of a pixel in eight bits, with its color looked up in the palette and with alpha
where there is a transparency chunk. More alphas than colors are not used. -/
def expand (h : Header) (c : Content) (pixel : RawPixel) : List UInt8 :=
  if h.isIndexed then
    let palette := pieces 3 (c.palette.getD [])
    let index := pixel.headD 0
    (palette[index]?).getD [0, 0, 0] ++
      match c.transparency with
      | some alphas => [if palette.length < alphas.length then 255 else (alphas[index]?).getD 255]
      | none => []
  else
    pixel.map (fun v => UInt8.ofNat (v * 255 / (Nat.pow 2 h.depth - 1))) ++
      match c.transparency with
      | some key =>
        let color := (pieces 2 (key.take (2 * h.channels))).map (big · % 256)
        [if color = pixel then 0 else 255]
      | none => []

/-- The name of a kind of pixels by its channels, for pictures with sixteen bits. -/
def kindName : Nat → String
  | 1 => "L16"
  | 2 => "La16"
  | 3 => "Rgb16"
  | _ => "Rgba16"

/-- The header and the content of a file. -/
def read? (file : List UInt8) : Option (Header × Content) := do
  match ← chunks? file with
  | [] => none
  | first :: rest =>
    guard (first.isOf "IHDR")
    let h ← Header.read? first.data
    let content ← rest.foldlM (Content.add? h) {}
    guard (!h.isIndexed || content.palette.isSome)
    return (h, content)

/-- The image in a PNG file. Samples of sixteen bits are not used; `path` names the file in the
message that says so. -/
def decode (path : String) (file : List UInt8) : Except ImageError Image := do
  let broken : ImageError := .undecodable "broken file"
  let some (h, content) := read? file | throw broken
  let colors := if h.isIndexed then 3 else h.channels
  let channels := if content.transparency.isSome then colors + 1 else colors
  if Image.maxBytes < h.width * h.height * channels * ((h.depth + 7) / 8) then throw broken
  let some passes := do readPasses? h h.passSizes (← Deflate.inflate? content.stream) | throw broken
  if h.depth = 16 then throw (.unsupported s!"{kindName channels} in {path}")
  let pixels := (Interlace.merge passes).flatten
  return ⟨h.width, h.height, channels, .bytes (pixels.flatMap (expand h content))⟩

end MaterialViewer.Png
