import MaterialViewer.Text.Hidden

/-!
# Quoted texts

Between quotation marks, characters that do not show on their own are written with a backslash: the
quotation marks, the backslash, line ends and tabs by a letter, and all others by their number in
braces. Quoted bytes are written alike, and any byte by its number.
-/

namespace MaterialViewer.Quoted

/-- A character as it is written between quotation marks. -/
def encodeChar (c : Char) : List Char :=
  match c with
  | '\x00' => ['\\', '0']
  | '\t' => ['\\', 't']
  | '\n' => ['\\', 'n']
  | '\r' => ['\\', 'r']
  | '"' => ['\\', '"']
  | '\'' => ['\\', '\'']
  | '\\' => ['\\', '\\']
  | c =>
    if Text.isHidden c then
      ['\\', 'u', '\x7b'] ++ Nat.toDigits 16 c.toNat ++ ['\x7d']
    else [c]

/-- A text between quotation marks. -/
def encode (s : String) : List Char := '"' :: s.toList.flatMap encodeChar ++ ['"']

/-- A byte as it is written between quotation marks, by its number. -/
def encodeByte (b : UInt8) : List Char :=
  ['\\', 'x'] ++ Nat.toDigits 16 (b.toNat / 16) ++ Nat.toDigits 16 (b.toNat % 16)

/-- The value of a hexadecimal digit. -/
def hexDigit? (c : Char) : Option Nat :=
  if '0' ≤ c ∧ c ≤ '9' then some (c.toNat - '0'.toNat)
  else if 'a' ≤ c ∧ c ≤ 'f' then some (c.toNat - 'a'.toNat + 10)
  else if 'A' ≤ c ∧ c ≤ 'F' then some (c.toNat - 'A'.toNat + 10)
  else none

/-- The value of hexadecimal digits. -/
def hex? (digits : List Char) : Option Nat :=
  digits.foldlM (fun n c => (hexDigit? c).map (16 * n + ·)) 0

/-- The character with a code point. -/
def charOf? (n : Nat) : Option Char := if n.isValidChar then some (Char.ofNat n) else none

/-- The number of bytes of a character whose first byte is not a character by itself. -/
def byteCount (first : Nat) : Nat := if first < 0xE0 then 2 else if first < 0xF0 then 3 else 4

/-- `count` bytes, each written as a backslash, an `x` and two digits. -/
def readBytes? : Nat → List Char → Option (List UInt8 × List Char)
  | 0, cs => some ([], cs)
  | count + 1, '\\' :: 'x' :: a :: b :: rest => do
    let value ← hex? [a, b]
    let (others, rest) ← readBytes? count rest
    return (UInt8.ofNat value :: others, rest)
  | _, _ => none

/-- The character behind a backslash, and the rest. -/
def readEscape? (cs : List Char) : Option (Char × List Char) :=
  match cs with
  | '\'' :: rest => some ('\'', rest)
  | '"' :: rest => some ('"', rest)
  | '\\' :: rest => some ('\\', rest)
  | 'n' :: rest => some ('\n', rest)
  | 'r' :: rest => some ('\r', rest)
  | 't' :: rest => some ('\t', rest)
  | '0' :: rest => some ('\x00', rest)
  | 'x' :: a :: b :: rest => do
    let first ← hex? [a, b]
    if first < 0x80 then return (Char.ofNat first, rest)
    let (bytes, rest) ← readBytes? (byteCount first) ('\\' :: cs)
    match (String.fromUTF8? ⟨bytes.toArray⟩).map String.toList with
    | some [c] => some (c, rest)
    | _ => none
  | 'u' :: '\x7b' :: rest => do
    let (digits, rest) := rest.span (· ≠ '\x7d')
    guard (digits ≠ [] ∧ digits.length ≤ 6)
    return (← charOf? (← hex? digits), rest.drop 1)
  | _ => none

/-- The bytes of the next character or escape among quoted bytes, and the rest. -/
def readBytePart? : List Char → Option (List UInt8 × List Char)
  | '\\' :: 'x' :: a :: b :: rest => (hex? [a, b]).map fun n => ([UInt8.ofNat n], rest)
  | '\\' :: rest => (readEscape? rest).map fun (c, rest) => (c.toString.toUTF8.toList, rest)
  | c :: rest => some (c.toString.toUTF8.toList, rest)
  | [] => none

/-- The bytes up to the closing quotation mark, and the rest. Each step takes at least one
character, so `fuel` steps are enough. -/
def decodeBytesFrom? : Nat → List Char → Option (List UInt8 × List Char)
  | 0, _ => none
  | _ + 1, '"' :: rest => some ([], rest)
  | fuel + 1, cs => do
    let (bytes, rest) ← readBytePart? cs
    let (others, rest) ← decodeBytesFrom? fuel rest
    return (bytes ++ others, rest)

/-- The bytes behind an opening quotation mark, and the rest. -/
def decodeBytes? (cs : List Char) : Option (List UInt8 × List Char) :=
  decodeBytesFrom? (cs.length + 1) cs

/-- The characters up to the closing quotation mark, and the rest. Each step takes at least one
character, so `fuel` steps are enough. -/
def decodeFrom? : Nat → List Char → Option (List Char × List Char)
  | 0, _ | _, [] => none
  | _ + 1, '"' :: rest => some ([], rest)
  | fuel + 1, '\\' :: rest => do
    let (c, rest) ← readEscape? rest
    let (cs, rest) ← decodeFrom? fuel rest
    return (c :: cs, rest)
  | fuel + 1, c :: rest => do
    let (cs, rest) ← decodeFrom? fuel rest
    return (c :: cs, rest)

/-- The text behind an opening quotation mark, and the rest. -/
def decode? (cs : List Char) : Option (String × List Char) :=
  (decodeFrom? (cs.length + 1) cs).map fun (text, rest) => (String.ofList text, rest)

end MaterialViewer.Quoted
