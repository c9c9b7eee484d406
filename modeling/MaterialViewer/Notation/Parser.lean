import MaterialViewer.Notation.Meaning
import MaterialViewer.Notation.Quoted
import MaterialViewer.Text.Word

/-!
# Reading object notation

`Notation.parse?` reads the tree of a text, together with the extensions that its first lines switch
on. Blanks and comments may stand between any two parts, and a comma may follow the last entry of a
list. Values nest to a limited depth.
-/

namespace MaterialViewer.Notation

/-! ## Blanks and comments -/

/-- The code points of blanks. -/
def blankCodes : List Nat :=
  [0x9, 0xA, 0xB, 0xC, 0xD, 0x20, 0x85, 0x200E, 0x200F, 0x2028, 0x2029]

/-- Whether a character is a blank. -/
def isBlank (c : Char) : Bool := blankCodes.contains c.toNat

/-- What follows a block comment whose opening has been read. Comments nest, and `level` counts the
open ones around it. -/
def skipComment? (level : Nat) : List Char → Option (List Char)
  | [] => none
  | '*' :: '/' :: rest =>
    match level with
    | 0 => some rest
    | level + 1 => skipComment? level rest
  | '/' :: '*' :: rest => skipComment? (level + 1) rest
  | _ :: rest => skipComment? level rest

/-- What follows blanks and comments; none if a comment is not closed. Each step takes at least one
character, so `fuel` steps are enough. -/
def skipFrom? : Nat → List Char → Option (List Char)
  | 0, _ => none
  | _, [] => some []
  | fuel + 1, '/' :: '/' :: rest => skipFrom? fuel (rest.dropWhile (· ≠ '\n'))
  | fuel + 1, '/' :: '*' :: rest => (skipComment? 0 rest).bind (skipFrom? fuel)
  | fuel + 1, c :: rest => if isBlank c then skipFrom? fuel rest else some (c :: rest)

/-- What follows blanks and comments. -/
def skip? (cs : List Char) : Option (List Char) := skipFrom? (cs.length + 1) cs

/-! ## Words and numbers -/

/-- Whether a marked word can hold a character: those of other words, and those of numbers. -/
def isMarkedPart (c : Char) : Bool := Text.isWordPart c || ['.', '+', '-'].contains c

/-- A word, and the rest. -/
def readWord? : List Char → Option (Word × List Char)
  | 'r' :: '#' :: rest =>
    let (name, rest) := rest.span isMarkedPart
    if name.isEmpty then none else some (⟨String.ofList name, true⟩, rest)
  | c :: rest =>
    if Text.isWordStart c || c = '_' then
      let (name, rest) := rest.span Text.isWordPart
      some (⟨String.ofList (c :: name), false⟩, rest)
    else none
  | [] => none

/-- The name that a word gives, marked or not, and the rest. -/
def readName? (cs : List Char) : Option (String × List Char) :=
  (readWord? cs).map fun (w, rest) => (w.name, rest)

/-- A number, and the rest. -/
def readNumber (cs : List Char) : Notation × List Char :=
  let (digits, rest) := cs.span isMarkedPart
  (.number digits, rest)

/-! ## Texts -/

/-- The text up to a quotation mark that is followed by `count` hash signs, and the rest. -/
def readRaw? (count : Nat) : List Char → Option (List Char × List Char)
  | [] => none
  | c :: rest =>
    if c = '"' ∧ rest.take count = List.replicate count '#' then some ([], rest.drop count)
    else (readRaw? count rest).map fun (front, rest) => (c :: front, rest)

/-- A text without escapes, whose leading `r` has been read; none if it is no text. -/
def readRawText? (cs : List Char) : Option (String × List Char) :=
  let (hashes, rest) := cs.span (· = '#')
  match rest with
  | '"' :: rest =>
    (readRaw? hashes.length rest).map fun (body, rest) => (String.ofList body, rest)
  | _ => none

/-- A quoted character, whose first mark has been read. It is written with at most one escape. -/
def readCharacter? : List Char → Option (Char × List Char)
  | '\\' :: rest => do
    let (c, after) ← Quoted.readEscape? rest
    guard (rest.head? ≠ some 'x' ∨ c.toNat < 0x80)
    match after with
    | '\'' :: rest => some (c, rest)
    | _ => none
  | c :: '\'' :: rest => some (c, rest)
  | _ => none

/-- A quoted byte, whose first mark has been read. It is not written by the number of a
character. -/
def readByte? (cs : List Char) : Option (UInt8 × List Char) :=
  if cs.take 2 = ['\\', 'u'] then none
  else
    match Quoted.readBytePart? cs with
    | some ([b], '\'' :: rest) => some (b, rest)
    | _ => none

/-- A value in quotation marks with a letter before them: a text or bytes without escapes, bytes
with escapes, or a byte. -/
def readPrefixed? : List Char → Option (Notation × List Char)
  | 'r' :: rest => (readRawText? rest).map fun (s, rest) => (.text s, rest)
  | 'b' :: 'r' :: rest =>
    (readRawText? rest).map fun (s, rest) => (.bytes s.toUTF8.toList, rest)
  | 'b' :: '"' :: rest => (Quoted.decodeBytes? rest).map fun (values, rest) => (.bytes values, rest)
  | 'b' :: '\'' :: rest => (readByte? rest).map fun (b, rest) => (.byte b, rest)
  | _ => none

/-! ## Lists -/

/-- Items up to a closing character, with commas between them. Each item takes at least one
character, so `fuel` items are enough. -/
def readItems? {α : Type} (item : List Char → Option (α × List Char)) (closing : Char) :
    Nat → List Char → Option (List α × List Char)
  | 0, _ => none
  | fuel + 1, cs => do
    match ← skip? cs with
    | [] => none
    | c :: rest =>
      if c = closing then return ([], rest)
      let (first, rest) ← item (c :: rest)
      match ← skip? rest with
      | ',' :: rest =>
        let (others, rest) ← readItems? item closing fuel rest
        return (first :: others, rest)
      | d :: rest => if d = closing then return ([first], rest) else none
      | [] => none

/-- A key, a colon and a value. -/
def readPair? {α β : Type} (key : List Char → Option (α × List Char))
    (value : List Char → Option (β × List Char)) (cs : List Char) :
    Option ((α × β) × List Char) := do
  let (k, rest) ← key cs
  match ← skip? rest with
  | ':' :: rest =>
    let (v, rest) ← value (← skip? rest)
    return ((k, v), rest)
  | _ => none

/-- Whether a list begins with a word and a colon. -/
def beginsWithField (cs : List Char) : Bool :=
  match (skip? cs).bind readName? with
  | some (_, rest) => ((skip? rest).bind List.head?) = some ':'
  | none => false

/-- What stands between parentheses, the opening one of which has been read: fields if it begins
with one, and otherwise items. -/
def readGroup? (value : List Char → Option (Notation × List Char)) (name? : Option Word)
    (cs : List Char) : Option (Notation × List Char) :=
  if beginsWithField cs then
    (readItems? (readPair? readName? value) ')' (cs.length + 1) cs).map fun (fields, rest) =>
      (.record name? fields, rest)
  else
    (readItems? value ')' (cs.length + 1) cs).map fun (items, rest) => (.tuple name? items, rest)

/-! ## Values -/

/-- Whether a value can be followed by a character, so that none begins with it. -/
def isAfterValue (c : Char) : Bool := [',', ':', ')', ']', '\x7d'].contains c

/-- A value, nested to at most `depth` brackets, that begins with the first character. -/
def readValue? : Nat → List Char → Option (Notation × List Char)
  | _, [] => none
  | _, '"' :: rest => (Quoted.decode? rest).map fun (s, rest) => (.text s, rest)
  | _, '\'' :: rest => (readCharacter? rest).map fun (c, rest) => (.character c, rest)
  | _, '(' :: ')' :: rest => some (.unit, rest)
  | depth, c :: rest =>
    let nested? : Option (List Char → Option (Notation × List Char)) :=
      match depth with
      | 0 => none
      | depth + 1 => some (readValue? depth)
    if c = '(' then nested?.bind fun value => readGroup? value none rest
    else if c = '[' then
      nested?.bind fun value =>
        (readItems? value ']' (rest.length + 1) rest).map fun (items, rest) =>
          (.sequence items, rest)
    else if c = '\x7b' then
      nested?.bind fun value =>
        (readItems? (readPair? value value) '\x7d' (rest.length + 1) rest).map
          fun (entries, rest) => (.table entries, rest)
    else if c.isDigit || ['+', '-', '.'].contains c then some (readNumber (c :: rest))
    else
      match readPrefixed? (c :: rest) with
      | some found => some found
      | none => do
        let (w, rest) ← readWord? (c :: rest)
        match ← skip? rest with
        | [] => return (.word w, [])
        | '(' :: inner => nested?.bind fun value => readGroup? value (some w) inner
        | d :: rest =>
          if w = .plain "Some" && !isAfterValue d then
            nested?.bind fun value =>
              (value (d :: rest)).map fun (n, rest) => (.bareSome n, rest)
          else return (.word w, d :: rest)

/-! ## Extensions -/

/-- What follows the given marks, with blanks between them. -/
def skipMarks? : List (List Char) → List Char → Option (List Char)
  | [], cs => some cs
  | mark :: marks, cs => do
    let cs ← skip? cs
    if mark.isPrefixOf cs then skipMarks? marks (cs.drop mark.length) else none

/-- The extensions at the beginning of a text, and the rest. Each line of extensions takes at least
one character, so `fuel` lines are enough. -/
def readDialect? : Nat → Dialect → List Char → Option (Dialect × List Char)
  | 0, _, _ => none
  | fuel + 1, dialect, cs => do
    match ← skip? cs with
    | '#' :: rest =>
      let rest ← skipMarks? (["!", "[", "enable", "("].map String.toList) rest
      let (names, rest) ← readItems? readName? ')' (rest.length + 1) rest
      guard (!names.isEmpty)
      let dialect ← names.foldlM Dialect.enable? dialect
      readDialect? fuel dialect (← skipMarks? [[']']] rest)
    | cs => return (dialect, cs)

/-- The tree of a text, with the extensions that it switches on. -/
def parse? (s : String) : Option (Dialect × Notation) := do
  let cs := s.toList
  let (dialect, cs) ← readDialect? (cs.length + 1) {} cs
  let (value, rest) ← readValue? depthLimit cs
  guard ((← skip? rest).isEmpty)
  return (dialect, value)

end MaterialViewer.Notation
