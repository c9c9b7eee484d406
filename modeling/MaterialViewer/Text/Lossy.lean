/-!
# Text in bytes

Headers of binary files hold text that nobody has checked. It is read as UTF-8, and a byte that does
not belong to the encoding of a character stands for the replacement character, so that every list
of bytes is a text.
-/

namespace MaterialViewer.Text

/-- The character that the first `n` bytes encode. -/
def charOfBytes? (n : Nat) (bytes : List UInt8) : Option Char :=
  match (String.fromUTF8? (bytes.take n).toByteArray).map String.toList with
  | some [c] => some c
  | _ => none

/-- The character at the front of some bytes, and the number of its bytes. -/
def frontChar? (bytes : List UInt8) : Option (Char × Nat) :=
  [1, 2, 3, 4].findSome? fun n => (charOfBytes? n bytes).map (·, n)

/-- The characters that bytes encode after `skip` of them, with the replacement character for each
byte that encodes none. -/
def lossyChars (skip : Nat) : List UInt8 → List Char
  | [] => []
  | b :: rest =>
    match skip with
    | n + 1 => lossyChars n rest
    | 0 =>
      match frontChar? (b :: rest) with
      | some (c, n) => c :: lossyChars (n - 1) rest
      | none => '\uFFFD' :: lossyChars 0 rest

/-- The text in some bytes. -/
def lossy (bytes : List UInt8) : List Char := lossyChars 0 bytes

end MaterialViewer.Text
