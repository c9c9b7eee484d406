import MaterialViewer.Markup.Entity
import MaterialViewer.Text.Blank

/-!
# Markup events

A text of markup is read as a sequence of events: tags that open, close or do both, and texts
between them. Blank text is no event, and comments, declarations, instructions and character data
are events that say nothing.

`events` ends at the first fault: a fault in the text is the event `broken`, after which there is no
other.
-/

namespace MaterialViewer.Markup

/-- What is wrong with a text of markup. -/
inductive SyntaxError
  /-- A tag, a comment or a declaration is not closed. -/
  | unclosed
  /-- What follows `<!` begins no known declaration. -/
  | unknownDeclaration
  /-- A closing tag closes nothing, or not what was opened last. -/
  | mismatchedTag
  /-- An attribute has no quoted value, or the same key as another. -/
  | malformedAttribute
  /-- A reference is unknown or has no end. -/
  | malformedReference
deriving DecidableEq, Repr

/-- The text of a syntax error. -/
def SyntaxError.message : SyntaxError → String
  | unclosed => "tag, comment or declaration is not closed"
  | unknownDeclaration => "unknown declaration"
  | mismatchedTag => "closing tag does not match the opening tag"
  | malformedAttribute => "malformed attribute"
  | malformedReference => "malformed reference"

/-- A name with attributes of different keys. -/
structure Tag where
  /-- The name of the tag. -/
  name : String
  /-- The attributes in the order in which they are written. -/
  attributes : List (String × String) := []
deriving DecidableEq, Repr

/-- One event of a text of markup. -/
inductive Event
  /-- A tag that opens an element. -/
  | opening (tag : Tag)
  /-- A tag that opens and closes an element. -/
  | empty (tag : Tag)
  /-- A tag that closes the element opened last. -/
  | closing
  /-- A text that is not blank at its two ends. -/
  | text (content : String)
  /-- A comment, a declaration, an instruction or character data. -/
  | other
  /-- A fault in the text, at which reading ends. -/
  | broken (error : SyntaxError)
deriving DecidableEq, Repr

/-! ## Scanning -/

/-- Whether a character separates the parts of a tag. -/
def isSpace (c : Char) : Bool := c = ' ' || c = '\n' || c = '\r' || c = '\t'

/-- The characters up to the first `>` whose reversed front `accept` holds, and those after it. -/
def scanTo (accept : List Char → Bool) (front : List Char) :
    List Char → Option (List Char × List Char)
  | [] => none
  | c :: cs =>
    if c = '>' && accept front then some (front.reverse, cs) else scanTo accept (c :: front) cs

/-- The quotation mark that is open after reading a character. -/
def quoteAfter (quote? : Option Char) (c : Char) : Option Char :=
  match quote? with
  | some quote => if c = quote then none else some quote
  | none => if c = '"' || c = '\'' then some c else none

/-- A tag does not end inside quotation marks. -/
def endsTag (front : List Char) : Bool := (front.reverse.foldl quoteAfter none).isNone

/-- An instruction ends with `?`. -/
def endsInstruction (front : List Char) : Bool := front.head? = some '?'

/-- A comment ends with two dashes after the two that begin it. -/
def endsComment (front : List Char) : Bool := front.length > 4 && "--".toList.isPrefixOf front

/-- Character data ends with two brackets. -/
def endsCharacterData (front : List Char) : Bool := "]]".toList.isPrefixOf front

/-- A document type ends where as many angle brackets are closed as are opened. -/
def endsDocumentType (front : List Char) : Bool := front.count '<' = front.count '>'

/-- What an opening bracket begins. -/
inductive BracketedKind
  | comment
  | characterData
  | documentType
  | instruction
  | closingTag
  | openingTag
deriving DecidableEq

/-- The markup between two brackets, as far as it says something. -/
inductive Bracketed
  | opening (body : List Char)
  | closing (name : List Char)
  | other
deriving DecidableEq

/-- What the text after an opening bracket begins. -/
def BracketedKind.ofText : List Char → Except SyntaxError BracketedKind
  | '!' :: '-' :: _ => .ok .comment
  | '!' :: '[' :: _ => .ok .characterData
  | '!' :: 'D' :: _ | '!' :: 'd' :: _ => .ok .documentType
  | '!' :: _ => .error .unknownDeclaration
  | '?' :: _ => .ok .instruction
  | '/' :: _ => .ok .closingTag
  | _ => .ok .openingTag

/-- Whether markup of a kind ends after the reversed text `front`. -/
def BracketedKind.endsAfter : BracketedKind → List Char → Bool
  | comment => endsComment
  | characterData => endsCharacterData
  | documentType => endsDocumentType
  | instruction => endsInstruction
  | closingTag | openingTag => endsTag

/-- Whether a text begins with a word, in capital or small letters. -/
def startsWithWord (word text : List Char) : Bool :=
  (text.take word.length).map Char.toLower = word

/-- The name that a closing tag closes, from the text between its brackets. -/
def closedName (body : List Char) : List Char :=
  let name := body.drop 1
  if name.all isSpace then name else Text.dropEndWhile isSpace name

/-- Whether the text between the brackets is well-formed markup of a kind. -/
def BracketedKind.accepts (body : List Char) : BracketedKind → Bool
  | comment => "!--".toList.isPrefixOf body
  | characterData => "![CDATA[".toList.isPrefixOf body
  | documentType => startsWithWord "!doctype".toList body && (body.drop 8).any (!isSpace ·)
  | instruction => body.length > 1
  | closingTag | openingTag => true

/-- The markup of a kind with a text between its brackets. -/
def BracketedKind.read (body : List Char) : BracketedKind → Bracketed
  | closingTag => .closing (closedName body)
  | openingTag => .opening body
  | comment | characterData | documentType | instruction => .other

/-- The markup that begins after an opening bracket, and the text after it. -/
def scanBracketed (cs : List Char) : Except SyntaxError (Bracketed × List Char) :=
  match BracketedKind.ofText cs with
  | .error e => .error e
  | .ok kind =>
    match scanTo kind.endsAfter [] cs with
    | none => .error .unclosed
    | some (body, rest) =>
      if kind.accepts body then .ok (kind.read body, rest) else .error .unclosed

theorem length_of_scanTo {accept : List Char → Bool} {front cs body rest : List Char}
    (h : scanTo accept front cs = some (body, rest)) : rest.length < cs.length := by
  induction cs generalizing front with
  | nil => simp [scanTo] at h
  | cons c cs ih =>
    simp only [scanTo] at h
    split at h
    · simp only [Option.some.injEq, Prod.mk.injEq] at h
      simp [← h.2]
    · have := ih h
      simp only [List.length_cons]
      omega

theorem length_of_scanBracketed {cs rest : List Char} {m : Bracketed}
    (h : scanBracketed cs = .ok (m, rest)) : rest.length < cs.length := by
  unfold scanBracketed at h
  split at h
  · simp at h
  · split at h
    · simp at h
    · rename_i body tail heq
      split at h
      · simp only [Except.ok.injEq, Prod.mk.injEq] at h
        exact h.2 ▸ length_of_scanTo heq
      · simp at h

/-! ## Attributes -/

theorem length_dropWhile_le (p : Char → Bool) (cs : List Char) :
    (cs.dropWhile p).length ≤ cs.length := (List.dropWhile_sublist p).length_le

/-- The key that a text begins with, and the text after the equals sign that follows it. -/
def scanKey (cs : List Char) : Option (List Char × List Char) :=
  match cs with
  | [] => none
  | c :: cs =>
    match (cs.dropWhile fun d => d ≠ '=' && !isSpace d).dropWhile isSpace with
    | '=' :: rest => some (c :: cs.takeWhile (fun d => d ≠ '=' && !isSpace d), rest)
    | _ => none

/-- The quoted value that a text begins with after blanks, and the text after it. -/
def scanQuoted (cs : List Char) : Option (List Char × List Char) :=
  match cs.dropWhile isSpace with
  | quote :: cs =>
    if quote = '"' || quote = '\'' then
      match cs.dropWhile (· ≠ quote) with
      | _ :: rest => some (cs.takeWhile (· ≠ quote), rest)
      | [] => none
    else none
  | [] => none

theorem length_of_scanKey {cs key rest : List Char} (h : scanKey cs = some (key, rest)) :
    rest.length < cs.length := by
  unfold scanKey at h
  split at h
  · simp at h
  · rename_i c cs
    split at h
    · rename_i tail heq
      simp only [Option.some.injEq, Prod.mk.injEq] at h
      have h₁ := length_dropWhile_le isSpace (cs.dropWhile fun d => d ≠ '=' && !isSpace d)
      have h₂ := length_dropWhile_le (fun d => d ≠ '=' && !isSpace d) cs
      rw [heq] at h₁
      simp only [List.length_cons] at h₁ ⊢
      rw [← h.2]
      omega
    · simp at h

theorem length_of_scanQuoted {cs value rest : List Char} (h : scanQuoted cs = some (value, rest)) :
    rest.length < cs.length := by
  unfold scanQuoted at h
  have h₁ := length_dropWhile_le isSpace cs
  split at h
  · rename_i quote cs' heq
    rw [heq] at h₁
    split at h
    · have h₂ := length_dropWhile_le (· ≠ quote) cs'
      split at h
      · rename_i tail heq'
        simp only [Option.some.injEq, Prod.mk.injEq] at h
        simp only [List.length_cons] at h₁
        rw [heq', List.length_cons] at h₂
        rw [← h.2]
        omega
      · simp at h
    · simp at h
  · simp at h

/-- The attributes of a tag, where `seen` are the keys before them. -/
def scanAttributes (seen : List (List Char)) (cs : List Char) :
    Except SyntaxError (List (String × String)) :=
  match _h : cs.dropWhile isSpace with
  | [] => .ok []
  | c :: more =>
    match _hk : scanKey (c :: more) with
    | none => .error .malformedAttribute
    | some (key, afterKey) =>
      if seen.contains key then .error .malformedAttribute
      else
        match _hv : scanQuoted afterKey with
        | none => .error .malformedAttribute
        | some (value, rest) =>
          match resolveReferences value with
          | none => .error .malformedReference
          | some value =>
            (scanAttributes (key :: seen) rest).map
              ((String.ofList key, String.ofList value) :: ·)
termination_by cs.length
decreasing_by
  have h₁ := length_dropWhile_le isSpace cs
  have h₂ := length_of_scanKey _hk
  have h₃ := length_of_scanQuoted _hv
  rw [_h] at h₁
  omega

/-- The tag whose text between the brackets is given. -/
def scanTag (body : List Char) : Except SyntaxError Tag :=
  (scanAttributes [] (body.dropWhile fun c => !isSpace c)).map fun attributes =>
    ⟨String.ofList (body.takeWhile fun c => !isSpace c), attributes⟩

/-! ## Events -/

/-- The events of a text, where `opened` are the names of the tags that are open. -/
def eventsFrom (opened : List (List Char)) (cs : List Char) : List Event :=
  match _h : cs.dropWhile isSpace with
  | [] => []
  | '<' :: more =>
    match _hm : scanBracketed more with
    | .error e => [.broken e]
    | .ok (.other, rest) => .other :: eventsFrom opened rest
    | .ok (.closing name, rest) =>
      match opened with
      | top :: opened =>
        if name = top then .closing :: eventsFrom opened rest else [.broken .mismatchedTag]
      | [] => [.broken .mismatchedTag]
    | .ok (.opening body, rest) =>
      let isEmpty := body.getLast? = some '/'
      match scanTag (if isEmpty then body.dropLast else body) with
      | .error e => [.broken e]
      | .ok tag =>
        if isEmpty then .empty tag :: eventsFrom opened rest
        else .opening tag :: eventsFrom (tag.name.toList :: opened) rest
  | c :: more =>
    match resolveReferences (Text.dropEndWhile isSpace (c :: more.takeWhile (· ≠ '<'))) with
    | none => [.broken .malformedReference]
    | some content => .text (String.ofList content) :: eventsFrom opened (more.dropWhile (· ≠ '<'))
termination_by cs.length
decreasing_by
  all_goals
    have h₁ := length_dropWhile_le isSpace cs
    rw [_h] at h₁
    simp only [List.length_cons] at h₁
  all_goals first
    | have h₂ := length_of_scanBracketed _hm; omega
    | have h₂ := length_dropWhile_le (· ≠ '<') more; omega

/-- The events of a text. A byte order mark at its beginning is skipped. -/
def events (text : String) : List Event :=
  match text.toList with
  | '\uFEFF' :: rest => eventsFrom [] rest
  | cs => eventsFrom [] cs

end MaterialViewer.Markup
