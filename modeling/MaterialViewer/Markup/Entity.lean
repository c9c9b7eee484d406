import MaterialViewer.Number.Integer

/-!
# References in markup

Text and attribute values of markup may hold references: `&name;` for one of five characters, and
`&#n;` or `&#xh;` for the character with a code point. `resolveReferences` replaces them all, once:
what a reference stands for is not read again.
-/

namespace MaterialViewer.Markup

/-- The character that a name stands for. -/
def namedCharacter? (name : List Char) : Option Char :=
  if name = "lt".toList then some '<'
  else if name = "gt".toList then some '>'
  else if name = "amp".toList then some '&'
  else if name = "apos".toList then some '\''
  else if name = "quot".toList then some '"'
  else none

/-- The value of a hexadecimal digit. -/
def hexDigit? (c : Char) : Option Nat :=
  if '0' ≤ c ∧ c ≤ '9' then some (c.toNat - '0'.toNat)
  else if 'a' ≤ c ∧ c ≤ 'f' then some (c.toNat - 'a'.toNat + 10)
  else if 'A' ≤ c ∧ c ≤ 'F' then some (c.toNat - 'A'.toNat + 10)
  else none

/-- The value of a list of at least one hexadecimal digit. -/
def hexDigits? (cs : List Char) : Option Nat :=
  if cs = [] then none
  else cs.foldl (fun acc c => acc.bind fun n => (hexDigit? c).map (16 * n + ·)) (some 0)

/-- The character with a code point; zero and the surrogates have none. -/
def character? (code : Nat) : Option Char :=
  if code ≠ 0 ∧ code.isValidChar then some (Char.ofNat code) else none

/-- The character that the text between `&` and `;` stands for. -/
def reference? (body : List Char) : Option Char :=
  match body with
  | '#' :: 'x' :: digits => (hexDigits? digits).bind character?
  | '#' :: digits => (Number.digits? digits).bind character?
  | name => namedCharacter? name

/-- The text with its references replaced, where `pending` is the part of a reference read so far,
in reverse. There is none if a reference is unknown or has no end. -/
def resolveFrom (pending : Option (List Char)) : List Char → Option (List Char)
  | [] => if pending.isSome then none else some []
  | c :: cs =>
    match pending with
    | none => if c = '&' then resolveFrom (some []) cs else (resolveFrom none cs).map (c :: ·)
    | some body =>
      if c = '&' then none
      else if c = ';' then
        match reference? body.reverse with
        | some character => (resolveFrom none cs).map (character :: ·)
        | none => none
      else resolveFrom (some (c :: body)) cs

/-- The text with its references replaced. -/
def resolveReferences (cs : List Char) : Option (List Char) := resolveFrom none cs

/-- A text without `&` holds no references. -/
theorem resolveReferences_of_not_mem {cs : List Char} (h : '&' ∉ cs) :
    resolveReferences cs = some cs := by
  unfold resolveReferences
  induction cs with
  | nil => rfl
  | cons c cs ih =>
    simp only [List.mem_cons, not_or] at h
    simp [resolveFrom, Ne.symm h.1, ih h.2]

end MaterialViewer.Markup
