import MaterialViewer.Image.Basic
import MaterialViewer.Image.Bytes
import MaterialViewer.Number.Decimal
import MaterialViewer.Number.Integer
import MaterialViewer.Text.Lossy
import MaterialViewer.Text.Split

/-!
# Radiance files

Images of floating-point colors. The header is lines of text up to an empty one, then a line with
the size. A pixel has one byte for red, green and blue each and a common exponent. A row is
compressed channel by channel if it starts with two bytes two, and otherwise it is written pixel by
pixel, where a pixel of three ones repeats the one before.
-/

namespace MaterialViewer.Radiance

open Bytes

/-- A color with a common exponent. -/
structure Pixel where
  red : UInt8
  green : UInt8
  blue : UInt8
  exponent : UInt8
deriving DecidableEq

/-- The three samples of a pixel. The exponent zero stands for black, and the others are powers of
two above `2 ^ (-136)`. -/
def Pixel.samples (p : Pixel) : List Single :=
  [p.red, p.green, p.blue].map fun c =>
    if p.exponent = 0 then .zero
    else .ofRatio false (c.toNat * Nat.pow 2 p.exponent.toNat) (Nat.pow 2 136)

/-- The first line and the rest; none at the end of the file. -/
def readLine? (bytes : List UInt8) : Option (List UInt8 × List UInt8) :=
  if bytes.isEmpty then none
  else some (bytes.takeWhile (· ≠ 0x0A), (bytes.dropWhile (· ≠ 0x0A)).drop 1)

/-- A file that is not well-formed. -/
def broken : ImageError := .undecodable "broken file"

/-- The key and the value in a header line. A line that begins or ends with its first `=` has
none. -/
def keyValue? (line : List Char) : Option (List Char × List Char) :=
  match Text.splitAtFirst? ['='] line with
  | none | some ([], _) | some (_, []) => none
  | some (key, value) => some (Text.trimWhile Text.isBlank key, value)

/-- Check a header line: lines that hold numbers have to hold them, and the kind of pixels has to
be the one that is read. -/
def checkLine (line : List Char) : Except ImageError Unit :=
  match keyValue? line with
  | none => .ok ()
  | some (key, value) =>
    let numbers (n : Nat) : Except ImageError Unit :=
      let found := Text.words value
      if found.length = n ∧ found.all fun word => (Number.readSingle? word).isSome
      then .ok () else .error broken
    match String.ofList key with
    | "FORMAT" =>
      if Text.trimWhile Text.isBlank value = "32-bit_rle_rgbe".toList then .ok ()
      else .error (.unsupported "kind of pixels")
    | "EXPOSURE" | "PIXASPECT" => numbers 1
    | "COLORCORR" => numbers 3
    | _ => .ok ()

/-- What follows the empty line at the end of the header. Each line takes at least one byte, so
`fuel` lines are enough. -/
def skipHeader : Nat → List UInt8 → Except ImageError (List UInt8)
  | 0, _ => .error broken
  | fuel + 1, bytes =>
    match readLine? bytes with
    | none => .error broken
    | some ([], rest) => .ok rest
    | some (line, rest) => do
      if line.head? ≠ some 0x23 then checkLine (Text.lossy line)
      skipHeader fuel rest

/-- The width and height in the line of the size. Rows go down and to the right; other directions
are not read. -/
def readSize (line : List Char) : Except ImageError (Nat × Nat) :=
  match Text.words line with
  | [['-', 'Y'], height, ['+', 'X'], width] =>
    match Number.readBelow? (Nat.pow 2 32) height, Number.readBelow? (Nat.pow 2 32) width with
    | some height, some width =>
      if 3 * (width * height) < Nat.pow 2 64 then .ok (width, height)
      else .error (.unsupported "size of the picture")
    | _, _ => .error broken
  | [_, _, _, _] => .error (.unsupported "direction of rows")
  | _ => .error broken

/-- `count` bytes of one channel, in runs: a count above 128 repeats one byte. -/
def readChannel? : Nat → Nat → List UInt8 → Option (List UInt8 × List UInt8)
  | _, 0, bytes => some ([], bytes)
  | 0, _ + 1, _ | _, _ + 1, [] => none
  | fuel + 1, count@(_ + 1), code :: rest => do
    let repeats := decide (code.toNat > 128)
    let run := if repeats then code.toNat - 128 else code.toNat
    guard (run ≤ count)
    let (values, rest) ←
      if repeats then rest.head?.map fun value => (List.replicate run value, rest.drop 1)
      else takeExact? run rest
    let (others, rest) ← readChannel? fuel (count - run) rest
    return (values ++ others, rest)

/-- `count` more pixels of a row that is written pixel by pixel, after `last`. Markers that follow
each other count in ever higher digits, by `unit`. -/
def readPixels? : Nat → Pixel → Nat → Nat → List UInt8 → Option (List Pixel × List UInt8)
  | _, _, _, 0, bytes => some ([], bytes)
  | 0, _, _, _ + 1, _ => none
  | fuel + 1, last, unit, count@(_ + 1), r :: g :: b :: e :: rest =>
    if r = 1 ∧ g = 1 ∧ b = 1 then do
      let run := e.toNat * unit
      guard (run ≤ count)
      let (others, rest) ← readPixels? fuel last (unit * 256) (count - run) rest
      return (List.replicate run last ++ others, rest)
    else do
      let pixel : Pixel := ⟨r, g, b, e⟩
      let (others, rest) ← readPixels? fuel pixel 1 (count - 1) rest
      return (pixel :: others, rest)
  | _, _, _, _ + 1, _ => none

/-- A row of pixels. -/
def readRow? (width : Nat) (bytes : List UInt8) : Option (List Pixel × List UInt8) := do
  let (front, rest) ← takeExact? 4 bytes
  match front with
  | [r, g, b, e] =>
    let fuel := bytes.length
    if r = 2 ∧ g = 2 ∧ b.toNat < 128 then
      let (reds, rest) ← readChannel? fuel width rest
      let (greens, rest) ← readChannel? fuel width rest
      let (blues, rest) ← readChannel? fuel width rest
      let (exponents, rest) ← readChannel? fuel width rest
      let pixels := ((reds.zip greens).zip (blues.zip exponents)).map
        fun ((r, g), (b, e)) => (⟨r, g, b, e⟩ : Pixel)
      return (pixels, rest)
    else
      guard (¬(r = 1 ∧ g = 1 ∧ b = 1))
      let first : Pixel := ⟨r, g, b, e⟩
      let (others, rest) ← readPixels? fuel first 1 (width - 1) rest
      return (first :: others, rest)
  | _ => none

/-- Rows of pixels. -/
def readRows? (width : Nat) : Nat → List UInt8 → Option (List Pixel)
  | 0, _ => some []
  | count + 1, bytes => do
    let (row, rest) ← readRow? width bytes
    return row ++ (← readRows? width count rest)

/-- The first line of a file. -/
def signature : List UInt8 := "#?RADIANCE".toUTF8.toList

/-- The image in a radiance file. -/
def decode (file : List UInt8) : Except ImageError Image := do
  if file.take signature.length ≠ signature then throw broken
  let some (_, rest) := readLine? (file.drop signature.length) | throw broken
  let rest ← skipHeader file.length rest
  let some (line, rest) := readLine? rest | throw broken
  let (width, height) ← readSize (Text.lossy line)
  if Image.maxBytes < 12 * (width * height) then throw broken
  let some pixels := if width = 0 then some [] else readRows? width height rest | throw broken
  return ⟨width, height, 3, .floats (pixels.flatMap Pixel.samples)⟩

end MaterialViewer.Radiance
