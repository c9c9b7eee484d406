/-!
# Compressed streams

A stream is a sequence of blocks of bits, the lowest bit of a byte first. A block holds bytes as
they are, or symbols in a prefix code: bytes, copies of what came before, and the end of the block.
The code is fixed, or its lengths stand in front of the symbols.

A stream that ends early gives what it has up to there; one that is not well-formed gives nothing.
-/

namespace MaterialViewer.Deflate

/-- Why reading stops. -/
inductive Stop
  /-- There are no more bits. -/
  | ended
  /-- The bits are not well-formed. -/
  | corrupt
deriving DecidableEq

/-! ## Bits -/

/-- The bits of a byte, the lowest first. -/
def bitsOf (b : UInt8) : List Bool := (List.range 8).map b.toNat.testBit

/-- The number that bits write, the lowest first. -/
def number (bits : List Bool) : Nat := bits.foldr (fun bit n => 2 * n + bit.toNat) 0

/-- The number in the next `n` bits, and the rest. -/
def take (n : Nat) (bits : List Bool) : Except Stop (Nat × List Bool) :=
  if (bits.take n).length = n then .ok (number (bits.take n), bits.drop n) else .error .ended

/-- The next `count` numbers of `n` bits each. -/
def takeEach (n : Nat) : Nat → List Bool → Except Stop (List Nat × List Bool)
  | 0, bits => .ok ([], bits)
  | count + 1, bits => do
    let (first, bits) ← take n bits
    let (others, bits) ← takeEach n count bits
    return (first :: others, bits)

/-! ## Prefix codes -/

/-- A prefix code in which shorter words come first, and words of one length go by their
symbols. -/
structure Code where
  /-- The number of words with one bit, with two, and so on. -/
  counts : List Nat
  /-- The symbols in the order of their words. -/
  symbols : List Nat

/-- The code in which each symbol has a word of the given length; zero means that there is none. -/
def Code.ofLengths (lengths : List Nat) : Code where
  counts := (List.range 15).map fun i => lengths.count (i + 1)
  symbols := (List.range 15).flatMap fun i =>
    (lengths.zipIdx.filter fun (length, _) => length = i + 1).map (·.2)

/-- Whether every sequence of bits begins with a word. -/
def Code.isComplete (c : Code) : Bool :=
  c.counts.zipIdx.foldl (fun total (count, i) => total + count * Nat.pow 2 (14 - i)) 0 =
    Nat.pow 2 15

/-- Whether there is no more than one word, of one bit. -/
def Code.isTiny (c : Code) : Bool :=
  c.symbols.length ≤ 1 && c.counts.take 1 = [c.symbols.length]

/-- The symbol of the word at the front. `word` is what is read of it, and `first` the first word of
that length. -/
def readWord (word first : Nat) : List Nat → List Nat → List Bool → Except Stop (Nat × List Bool)
  | [], _, _ => .error .corrupt
  | _ :: _, _, [] => .error .ended
  | count :: counts, symbols, bit :: bits =>
    let word := 2 * word + bit.toNat
    if word < first + count then
      match symbols[word - first]? with
      | some symbol => .ok (symbol, bits)
      | none => .error .corrupt
    else readWord word (2 * (first + count)) counts (symbols.drop count) bits

/-- The symbol of the word at the front, and the rest. -/
def Code.read (c : Code) (bits : List Bool) : Except Stop (Nat × List Bool) :=
  readWord 0 0 c.counts c.symbols bits

/-! ## Lengths of codes -/

/-- The order in which the lengths for the code of lengths are written. -/
def lengthOrder : List Nat := [16, 17, 18, 0, 8, 7, 9, 6, 10, 5, 11, 4, 12, 3, 13, 2, 14, 1, 15]

/-- Lengths up to `total` after those in `done`, the last of which is first. The symbols from 16 on
repeat the last one, or a zero. Every symbol takes at least one bit, so `fuel` symbols are
enough. -/
def readLengths (c : Code) (total : Nat) : Nat → List Nat → List Bool →
    Except Stop (List Nat × List Bool)
  | 0, _, _ => .error .corrupt
  | fuel + 1, done, bits =>
    if total ≤ done.length then
      if total = done.length then .ok (done.reverse, bits) else .error .corrupt
    else do
      let (symbol, bits) ← c.read bits
      let again (value base width : Nat) : Except Stop (List Nat × List Bool) := do
        let (more, bits) ← take width bits
        readLengths c total fuel (List.replicate (base + more) value ++ done) bits
      match symbol, done with
      | 16, last :: _ => again last 3 2
      | 16, [] => throw .corrupt
      | 17, _ => again 0 3 3
      | 18, _ => again 0 11 7
      | length, _ => readLengths c total fuel (length :: done) bits

/-- The lengths of the fixed code for bytes and copies. -/
def fixedLengths : List Nat :=
  List.replicate 144 8 ++ List.replicate 112 9 ++ List.replicate 24 7 ++ List.replicate 8 8

/-- The codes for bytes and lengths, and for distances, in front of a block. -/
def readCodes (bits : List Bool) : Except Stop ((Code × Code) × List Bool) := do
  let (literals, bits) ← take 5 bits
  let (distances, bits) ← take 5 bits
  let (count, bits) ← take 4 bits
  if 29 < literals ∨ 29 < distances then throw .corrupt
  let (found, bits) ← takeEach 3 (count + 4) bits
  let pairs := lengthOrder.zip found
  let lengthCode := Code.ofLengths ((List.range 19).map fun i => (pairs.lookup i).getD 0)
  if !lengthCode.isComplete then throw .corrupt
  let (lengths, bits) ← readLengths lengthCode (literals + distances + 258) 400 [] bits
  let literalLengths := lengths.take (literals + 257)
  let literalCode := Code.ofLengths literalLengths
  let distanceCode := Code.ofLengths (lengths.drop (literals + 257))
  if !literalCode.isComplete ∨ literalLengths[256]? = some 0 then throw .corrupt
  if !distanceCode.isComplete && !distanceCode.isTiny then throw .corrupt
  return ((literalCode, distanceCode), bits)

/-! ## Blocks -/

/-- The base and the number of further bits for each symbol of a length, from 257 on. -/
def lengthBases : List (Nat × Nat) :=
  [(3, 0), (4, 0), (5, 0), (6, 0), (7, 0), (8, 0), (9, 0), (10, 0), (11, 1), (13, 1), (15, 1),
    (17, 1), (19, 2), (23, 2), (27, 2), (31, 2), (35, 3), (43, 3), (51, 3), (59, 3), (67, 4),
    (83, 4), (99, 4), (115, 4), (131, 5), (163, 5), (195, 5), (227, 5), (258, 0)]

/-- The base and the number of further bits for each symbol of a distance. -/
def distanceBases : List (Nat × Nat) :=
  [(1, 0), (2, 0), (3, 0), (4, 0), (5, 1), (7, 1), (9, 2), (13, 2), (17, 3), (25, 3), (33, 4),
    (49, 4), (65, 5), (97, 5), (129, 6), (193, 6), (257, 7), (385, 7), (513, 8), (769, 8),
    (1025, 9), (1537, 9), (2049, 10), (3073, 10), (4097, 11), (6145, 11), (8193, 12), (12289, 12),
    (16385, 13), (24577, 13)]

/-- A number that is written as a symbol and further bits. -/
def readBased (bases : List (Nat × Nat)) (symbol : Nat) (bits : List Bool) :
    Except Stop (Nat × List Bool) :=
  match bases[symbol]? with
  | none => .error .corrupt
  | some (base, width) => (take width bits).map fun (more, bits) => (base + more, bits)

/-- What a word of a block means. -/
inductive Item
  /-- A byte. -/
  | byte (value : UInt8)
  /-- The end of the block. -/
  | endOfBlock
  /-- So many bytes again that stand a distance before. -/
  | copy (length distance : Nat)

/-- The next item of a block. -/
def readItem (literals distances : Code) (bits : List Bool) : Except Stop (Item × List Bool) := do
  let (symbol, bits) ← literals.read bits
  if symbol < 256 then return (.byte (UInt8.ofNat symbol), bits)
  else if symbol = 256 then return (.endOfBlock, bits)
  else
    let (length, bits) ← readBased lengthBases (symbol - 257) bits
    let (symbol, bits) ← distances.read bits
    let (distance, bits) ← readBased distanceBases symbol bits
    return (.copy length distance, bits)

/-- The output with `count` more bytes, each the one that stands `distance` before it. -/
def copyBack (distance : Nat) : Nat → Array UInt8 → Array UInt8
  | 0, out => out
  | count + 1, out => copyBack distance count (out.push ((out[out.size - distance]?).getD 0))

/-- The output with the items of a block, and what follows the block. Every item takes at least one
bit, so `fuel` items are enough. -/
def readItems (literals distances : Code) : Nat → Array UInt8 → List Bool →
    Array UInt8 × Except Stop (List Bool)
  | 0, out, _ => (out, .error .ended)
  | fuel + 1, out, bits =>
    match readItem literals distances bits with
    | .error stop => (out, .error stop)
    | .ok (.byte b, rest) => readItems literals distances fuel (out.push b) rest
    | .ok (.endOfBlock, rest) => (out, .ok rest)
    | .ok (.copy length distance, rest) =>
      if distance ≤ out.size then
        readItems literals distances fuel (copyBack distance length out) rest
      else (out, .error .corrupt)

/-- The output with `count` more bytes as they stand, and what follows them. -/
def copyBytes : Nat → Array UInt8 → List Bool → Array UInt8 × Except Stop (List Bool)
  | 0, out, bits => (out, .ok bits)
  | count + 1, out, bits =>
    match take 8 bits with
    | .error stop => (out, .error stop)
    | .ok (value, rest) => copyBytes count (out.push (UInt8.ofNat value)) rest

/-- The output with the content of a block of the given kind, and what follows the block. -/
def readBlock (kind : Nat) (out : Array UInt8) (bits : List Bool) :
    Array UInt8 × Except Stop (List Bool) :=
  match kind with
  | 0 =>
    match takeEach 16 2 (bits.drop (bits.length % 8)) with
    | .ok ([size, check], rest) =>
      if size + check = 0xFFFF then copyBytes size out rest else (out, .error .corrupt)
    | .ok _ => (out, .error .corrupt)
    | .error stop => (out, .error stop)
  | 1 =>
    readItems (.ofLengths fixedLengths) (.ofLengths (List.replicate 30 5)) bits.length out bits
  | 2 =>
    match readCodes bits with
    | .ok ((literals, distances), rest) => readItems literals distances rest.length out rest
    | .error stop => (out, .error stop)
  | _ => (out, .error .corrupt)

/-- The output with the content of all blocks up to the last one. Every block takes at least three
bits, so `fuel` blocks are enough. -/
def readBlocks : Nat → Array UInt8 → List Bool → Array UInt8 × Except Stop Unit
  | 0, out, _ => (out, .error .ended)
  | fuel + 1, out, bits =>
    match takeEach 1 1 bits, take 2 (bits.drop 1) with
    | .ok (isLast, _), .ok (kind, bits) =>
      match readBlock kind out bits with
      | (out, .ok rest) => if isLast = [1] then (out, .ok ()) else readBlocks fuel out rest
      | (out, .error stop) => (out, .error stop)
    | _, _ => (out, .error .ended)

/-- The content of a stream: a header of two bytes and blocks. The checksum behind the blocks is not
compared. -/
def inflate? (stream : List UInt8) : Option (List UInt8) :=
  match stream with
  | method :: flags :: rest =>
    let wellFormed := method.toNat % 16 = 8 ∧ method.toNat / 16 ≤ 7 ∧ flags.toNat / 32 % 2 = 0 ∧
      (256 * method.toNat + flags.toNat) % 31 = 0
    if wellFormed then
      let bits := rest.flatMap bitsOf
      match readBlocks bits.length #[] bits with
      | (_, .error .corrupt) => none
      | (out, _) => some out.toList
    else none
  | _ => none

end MaterialViewer.Deflate
