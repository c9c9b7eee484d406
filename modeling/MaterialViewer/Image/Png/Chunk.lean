import MaterialViewer.Image.Bytes

/-!
# Chunks of PNG files

After its signature a file is a sequence of chunks: a length, the name of the kind, the content and
a checksum.
-/

namespace MaterialViewer.Png

open Bytes

/-- The bytes at the front of every file. -/
def signature : List UInt8 := [0x89, 0x50, 0x4E, 0x47, 0x0D, 0x0A, 0x1A, 0x0A]

/-- A part of a file. -/
structure Chunk where
  /-- The name of the kind of chunk, four characters. -/
  kind : List UInt8
  /-- The content. -/
  data : List UInt8

/-- One bit of the division by the checksum's polynomial. -/
def crcShift (c : UInt32) : UInt32 := if c &&& 1 = 1 then (c >>> 1) ^^^ 0xEDB88320 else c >>> 1

/-- The remainder after one more byte. -/
def crcByte (c : UInt32) (b : UInt8) : UInt32 := Nat.repeat crcShift 8 (c ^^^ b.toUInt32)

/-- The checksum of some bytes. -/
def crc (bytes : List UInt8) : UInt32 := bytes.foldl crcByte 0xFFFFFFFF ^^^ 0xFFFFFFFF

/-- The bytes of a kind. -/
def kindOf (name : String) : List UInt8 := name.toUTF8.toList

/-- Whether a chunk is of a kind. -/
def Chunk.isOf (c : Chunk) (name : String) : Bool := c.kind = kindOf name

/-- A chunk that a reader may ignore has a small letter first. -/
def Chunk.isOptional (c : Chunk) : Bool := c.kind.head?.any fun b => b.toNat / 32 % 2 = 1

/-- The chunks up to the data chunks, and these; `inData` says that the chunk before is one of them.
What comes after them is not looked at, but some chunk has to begin there. A chunk with a wrong
checksum is left out if it is optional, and makes the file broken if it is not. -/
def readChunks? (inData : Bool) : Nat → List UInt8 → Option (List Chunk)
  | 0, _ => none
  | fuel + 1, bytes => do
    let (size, rest) ← readBig? 4 bytes
    let (kind, rest) ← takeExact? 4 rest
    let isData := decide (kind = kindOf "IDAT")
    if inData && !isData then return []
    let (data, rest) ← takeExact? size rest
    let (checksum, rest) ← readBig? 4 rest
    let chunk : Chunk := ⟨kind, data⟩
    let intact := decide ((crc (kind ++ data)).toNat = checksum)
    guard (intact || chunk.isOptional)
    let others ← readChunks? isData fuel rest
    return if intact then chunk :: others else others

/-- The chunks of a file up to the end of the data chunks. -/
def chunks? (file : List UInt8) : Option (List Chunk) := do
  guard (file.take 8 = signature)
  readChunks? false file.length (file.drop 8)

end MaterialViewer.Png
