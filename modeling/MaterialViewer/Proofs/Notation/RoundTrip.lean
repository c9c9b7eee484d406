import Mathlib.Data.Option.Basic
import MaterialViewer.Proofs.Notation.Lists
import MaterialViewer.Proofs.Notation.Quoted

/-!
# Proofs: reading printed notation

A printed tree is read as the tree that was printed, but for the numbers that are written as words,
which are read as words. The proof goes along the tree: each kind of value is read from its text if
the values in it are.
-/

namespace MaterialViewer.Notation

variable {c : Char} {cs rest inner : List Char} {depth k : Nat} {w : Word}

/-! ## What is read -/

/-- Whether a character is read as the beginning of a number. -/
def beginsNumber (c : Char) : Bool := c.isDigit || ['+', '-', '.'].contains c

mutual

/-- What a printed tree is read as: a number that does not begin like one is read as a word. -/
def asRead : Notation → Notation
  | word w => word w
  | number digits =>
    if digits.head?.any beginsNumber then number digits
    else word (.plain (String.ofList digits))
  | text value => text value
  | character value => character value
  | bytes values => bytes values
  | byte value => byte value
  | sequence items => sequence (allAsRead items)
  | table entries => table (entriesAsRead entries)
  | unit => unit
  | bareSome value => bareSome (asRead value)
  | tuple name? items => tuple name? (allAsRead items)
  | record name? fields => record name? (fieldsAsRead fields)

/-- What the items of a list are read as. -/
def allAsRead : List Notation → List Notation
  | [] => []
  | item :: items => asRead item :: allAsRead items

/-- What keys with values are read as. -/
def entriesAsRead : List (Notation × Notation) → List (Notation × Notation)
  | [] => []
  | (key, value) :: entries => (asRead key, asRead value) :: entriesAsRead entries

/-- What named fields are read as. -/
def fieldsAsRead : List (String × Notation) → List (String × Notation)
  | [] => []
  | (name, value) :: fields => (name, asRead value) :: fieldsAsRead fields

end

theorem asRead_number (digits : List Char) : asRead (.number digits) =
    if digits.head?.any beginsNumber then .number digits
    else .word (.plain (String.ofList digits)) := rfl

theorem asRead_sequence (items : List Notation) :
    asRead (.sequence items) = .sequence (items.map asRead) := by
  have hitems : allAsRead items = items.map asRead := by
    induction items with
    | nil => rfl
    | cons item items ih => exact congrArg (asRead item :: ·) ih
  exact congrArg Notation.sequence hitems

theorem asRead_tuple (name? : Option Word) (items : List Notation) :
    asRead (.tuple name? items) = .tuple name? (items.map asRead) :=
  congrArg (Notation.tuple name?) (Notation.sequence.inj (asRead_sequence items))

theorem asRead_table (entries : List (Notation × Notation)) :
    asRead (.table entries) = .table (entries.map fun e => (asRead e.1, asRead e.2)) := by
  have hentries : entriesAsRead entries = entries.map fun e => (asRead e.1, asRead e.2) := by
    induction entries with
    | nil => rfl
    | cons e entries ih => exact congrArg ((asRead e.1, asRead e.2) :: ·) ih
  exact congrArg Notation.table hentries

theorem asRead_record (name? : Option Word) (fields : List (String × Notation)) :
    asRead (.record name? fields) = .record name? (fieldsAsRead fields) := rfl

theorem fieldsAsRead_eq (fields : List (String × Notation)) :
    fieldsAsRead fields = fields.map fun f => (f.1, asRead f.2) := by
  induction fields with
  | nil => rfl
  | cons f fields ih => exact congrArg ((f.1, asRead f.2) :: ·) ih

/-! ## What is printed -/

theorem printAll_eq (items : List Notation) : printAll k items = items.map (print k) := by
  induction items with
  | nil => rfl
  | cons item items ih => exact congrArg (print k item :: ·) ih

theorem print_sequence (items : List Notation) :
    print k (.sequence items) = block k '[' ']' (items.map (print (k + 1))) :=
  congrArg (block k '[' ']') (printAll_eq items)

theorem print_table (entries : List (Notation × Notation)) :
    print k (.table entries) = block k '\x7b' '\x7d'
      (entries.map fun e => print (k + 1) e.1 ++ [':', ' '] ++ print (k + 1) e.2) := by
  have hentries : printEntries (k + 1) entries =
      entries.map fun e => print (k + 1) e.1 ++ [':', ' '] ++ print (k + 1) e.2 := by
    induction entries with
    | nil => rfl
    | cons e entries ih =>
      exact congrArg ((print (k + 1) e.1 ++ [':', ' '] ++ print (k + 1) e.2) :: ·) ih
  exact congrArg (block k '\x7b' '\x7d') hentries

theorem print_tuple (name? : Option Word) (items : List Notation) :
    print k (.tuple name? items) =
      nameText name? ++ '(' :: ([',', ' '].intercalate (items.map (print k)) ++ [')']) := by
  have hprint : print k (.tuple name? items) =
      nameText name? ++ ['('] ++ [',', ' '].intercalate (printAll k items) ++ [')'] := rfl
  rw [hprint, printAll_eq, List.append_assoc, List.append_assoc]
  rfl

theorem print_record (name? : Option Word) (fields : List (String × Notation)) :
    print k (.record name? fields) = nameText name? ++ block k '(' ')'
      (fields.map fun f => f.1.toList ++ [':', ' '] ++ print (k + 1) f.2) := by
  have hfields : printFields (k + 1) fields =
      fields.map fun f => f.1.toList ++ [':', ' '] ++ print (k + 1) f.2 := by
    induction fields with
    | nil => rfl
    | cons f fields ih =>
      exact congrArg ((f.1.toList ++ [':', ' '] ++ print (k + 1) f.2) :: ·) ih
  exact congrArg (nameText name? ++ block k '(' ')' ·) hfields

theorem wordText_ofList (digits : List Char) :
    wordText (.plain (String.ofList digits)) = digits := by
  rw [Word.plain, wordText, if_neg Bool.false_ne_true, List.nil_append, String.toList_ofList]

/-! ## What can be read -/

/-- A number that is read whole: it is made of the parts of numbers, and begins like a number or is
a word. -/
def IsNumeral (digits : List Char) : Prop :=
  (∃ c cs, digits = c :: cs ∧ beginsNumber c = true ∧ ∀ d ∈ cs, isMarkedPart d = true) ∨
    (Word.plain (String.ofList digits)).IsReadable

/-- A tree that can be read from its printed form, with a number of levels left for brackets. -/
inductive IsPrintable : Nat → Notation → Prop
  | word {depth : Nat} {w : Word} (hw : w.IsReadable) : IsPrintable depth (.word w)
  | number {depth : Nat} {digits : List Char} (h : IsNumeral digits) :
    IsPrintable depth (.number digits)
  | text {depth : Nat} (s : String) : IsPrintable depth (.text s)
  | sequence {depth : Nat} {items : List Notation} (h : ∀ n ∈ items, IsPrintable depth n) :
    IsPrintable (depth + 1) (.sequence items)
  | table {depth : Nat} {entries : List (Notation × Notation)}
    (hkeys : ∀ e ∈ entries, IsPrintable depth e.1)
    (hvalues : ∀ e ∈ entries, IsPrintable depth e.2) : IsPrintable (depth + 1) (.table entries)
  | tuple {depth : Nat} {name? : Option Word} {items : List Notation}
    (hname : ∀ w ∈ name?, w.IsReadable) (hne : items ≠ [])
    (h : ∀ n ∈ items, IsPrintable depth n) : IsPrintable (depth + 1) (.tuple name? items)
  | record {depth : Nat} {name? : Option Word} {fields : List (String × Notation)}
    (hname : ∀ w ∈ name?, w.IsReadable) (hne : fields ≠ [])
    (hnames : ∀ f ∈ fields, (Word.plain f.1).IsReadable)
    (h : ∀ f ∈ fields, IsPrintable depth f.2) : IsPrintable (depth + 1) (.record name? fields)

/-! ## The beginning of a value -/

theorem isMarkedPart_of_beginsNumber (h : beginsNumber c = true) : isMarkedPart c = true := by
  have hall : ∀ d ∈ ['+', '-', '.'], d ∈ ['.', '+', '-'] := List.all_iff_forall_prop.mp (by decide)
  rcases Bool.or_eq_true_iff.mp h with h | h
  · exact isMarkedPart_of_isWordPart (isWordPart_of_isDigit h)
  · have hmem := List.contains_iff_mem.mpr (hall c (List.contains_iff_mem.mp h))
    rw [isMarkedPart, hmem, Bool.or_true]

theorem lt_of_beginsNumber (h : beginsNumber c = true) : c.toNat < 0x41 := by
  have hall : ∀ d ∈ ['+', '-', '.'], d.toNat < 0x41 :=
    List.all_iff_forall_prop.mp (by decide)
  rcases Bool.or_eq_true_iff.mp h with h | h
  · exact Nat.lt_of_le_of_lt (Text.toNat_of_isDigit h).2 (by decide)
  · exact hall c (List.contains_iff_mem.mp h)

/-- A word begins with a letter or a low line. -/
def beginsWord (c : Char) : Bool := Text.isWordStart c || c = '_'

theorem le_of_beginsWord (h : beginsWord c = true) : 0x41 ≤ c.toNat := by
  have hall : ∀ r ∈ Text.wordStartRanges, 0x41 ≤ r.1 := by decide +kernel
  rcases Bool.or_eq_true_iff.mp h with h | h
  · obtain ⟨r, hr, hle, -⟩ := Text.inRanges_iff.mp h
    exact Nat.le_trans (hall r hr) hle
  · rw [of_decide_eq_true h]
    decide

theorem not_beginsWord_of_beginsNumber (h : beginsNumber c = true) : beginsWord c = false := by
  refine Bool.eq_false_iff.mpr fun hword => ?_
  have hlt := lt_of_beginsNumber h
  have hle := le_of_beginsWord hword
  omega

theorem isMarkedPart_of_beginsWord (h : beginsWord c = true) : isMarkedPart c = true := by
  rcases Bool.or_eq_true_iff.mp h with h | h
  · exact isMarkedPart_of_isWordPart (isWordPart_of_isWordStart h)
  · rw [of_decide_eq_true h]
    exact isMarkedPart_of_isWordPart isWordPart_lowLine

theorem beginsWord_of_isAlpha (h : c.isAlpha = true) : beginsWord c = true := by
  rw [beginsWord, Text.isWordStart_of_isAlpha h, Bool.true_or]

theorem exists_wordText (hw : w.IsReadable) :
    ∃ c cs, wordText w = c :: cs ∧ beginsWord c = true := by
  obtain ⟨name, isMarked⟩ := w
  cases isMarked with
  | true => exact ⟨'r', '#' :: name.toList, rfl, beginsWord_of_isAlpha rfl⟩
  | false =>
    obtain ⟨c, cs, hname, hstart, -⟩ := hw
    exact ⟨c, cs, hname, hstart⟩

theorem ne_of_isMarkedPart {m : Char} (h : isMarkedPart c = true) (hm : m ∈ marks) : c ≠ m := by
  rintro rfl
  rw [isMarkedPart_of_mem_marks hm] at h
  cases h

theorem exists_block (k : Nat) (opening closing : Char) (texts : List (List Char)) :
    ∃ cs, block k opening closing texts = opening :: cs := by
  unfold block
  split
  · exact ⟨_, rfl⟩
  · exact ⟨_, rfl⟩

/-! ## The cases of a value -/

/-- The reader of the values inside brackets. -/
def nested? : Nat → Option (List Char → Option (Notation × List Char))
  | 0 => none
  | depth + 1 => some (readValue? depth)

/-- The value that begins with a word, by what follows the word. -/
def wordValue? (nested? : Option (List Char → Option (Notation × List Char))) (w : Word) :
    List Char → Option (Notation × List Char)
  | [] => some (.word w, [])
  | '(' :: inner => nested?.bind fun value => readGroup? value (some w) inner
  | d :: rest =>
    if w = .plain "Some" && !isAfterValue d then
      nested?.bind fun value => (value (d :: rest)).map fun (n, rest) => (.bareSome n, rest)
    else some (.word w, d :: rest)

/-- How a value is read that is neither quoted nor empty parentheses, by its first character. -/
theorem readValue?_cons (hquote : c ≠ '"') (hquote' : c ≠ '\'')
    (hunit : c = '(' → cs.head? ≠ some ')') : readValue? depth (c :: cs) =
      if c = '(' then (nested? depth).bind fun value => readGroup? value none cs
      else if c = '[' then
        (nested? depth).bind fun value =>
          (readItems? value ']' (cs.length + 1) cs).map fun (items, rest) =>
            (.sequence items, rest)
      else if c = '\x7b' then
        (nested? depth).bind fun value =>
          (readItems? (readPair? value value) '\x7d' (cs.length + 1) cs).map
            fun (entries, rest) => (.table entries, rest)
      else if beginsNumber c then some (readNumber (c :: cs))
      else
        match readPrefixed? (c :: cs) with
        | some found => some found
        | none => (readWord? (c :: cs)).bind fun (w, rest) =>
          (skip? rest).bind fun rest => wordValue? (nested? depth) w rest := by
  have hunit : ∀ more, c = '(' → cs = ')' :: more → False := by
    rintro more hc rfl
    exact hunit hc rfl
  cases depth with
  | zero => exact readValue?.eq_5 c cs hquote hquote' hunit
  | succ depth => exact readValue?.eq_6 c cs depth hquote hquote' hunit

/-! ## Values without values in them -/

theorem readValue?_text (s : String) (rest : List Char) :
    readValue? depth (Quoted.encode s ++ rest) = some (.text s, rest) := by
  have hread := Quoted.decode?_encode s rest
  rw [Quoted.encode, List.cons_append, List.cons_append, readValue?.eq_2, List.append_assoc,
    List.singleton_append, hread]
  rfl

theorem readValue?_number (hc : beginsNumber c = true) (hcs : ∀ d ∈ cs, isMarkedPart d = true)
    (hrest : EndsValue rest) :
    readValue? depth (c :: cs ++ rest) = some (.number (c :: cs), rest) := by
  have hpart := isMarkedPart_of_beginsNumber hc
  have hspan : (c :: cs ++ rest).span isMarkedPart = (c :: cs, rest) :=
    Text.span_append (List.forall_mem_cons.mpr ⟨hpart, hcs⟩) hrest.endsWord.not_part
  have hne : ∀ m ∈ marks, c ≠ m := fun m => ne_of_isMarkedPart hpart
  have hnumber : readNumber (c :: (cs ++ rest)) = (.number (c :: cs), rest) := by
    rw [readNumber, ← List.cons_append, hspan]
  have hopen : c ≠ '(' := hne '(' (by decide)
  rw [List.cons_append, readValue?_cons (hne '"' (by decide)) (hne '\'' (by decide))
    fun hc => absurd hc hopen, if_neg hopen, if_neg (hne '[' (by decide)),
    if_neg (hne '\x7b' (by decide)), if_pos hc, hnumber]

theorem wordValue?_of_endsValue (hrest : EndsValue rest)
    (nested? : Option (List Char → Option (Notation × List Char))) :
    wordValue? nested? w rest = some (.word w, rest) := by
  cases rest with
  | nil => rfl
  | cons d rest =>
    have hafter : isAfterValue d = true := hrest d rfl
    have hopen : d ≠ '(' := by
      rintro rfl
      exact absurd hafter (by decide)
    rw [wordValue?.eq_3 _ _ _ _ hopen, hafter, Bool.not_true, Bool.and_false,
      if_neg Bool.false_ne_true]

/-- A value that begins with a word is the word, or what is in the parentheses behind it. -/
theorem readValue?_wordText (hw : w.IsReadable) (hrest : EndsWord rest) :
    readValue? depth (wordText w ++ rest) = wordValue? (nested? depth) w rest := by
  obtain ⟨c, cs, htext, hc⟩ := exists_wordText hw
  have hprefixed := readPrefixed?_wordText hw hrest
  have hword := readWord?_wordText hw hrest
  have hne : ∀ m ∈ marks, c ≠ m := fun m => ne_of_isMarkedPart (isMarkedPart_of_beginsWord hc)
  have hopen : c ≠ '(' := hne '(' (by decide)
  have hnumber : ¬ beginsNumber c = true := by
    intro hnumber
    rw [not_beginsWord_of_beginsNumber hnumber] at hc
    cases hc
  rw [htext, List.cons_append] at hprefixed hword ⊢
  rw [readValue?_cons (hne '"' (by decide)) (hne '\'' (by decide)) fun hc => absurd hc hopen,
    if_neg hopen, if_neg (hne '[' (by decide)), if_neg (hne '\x7b' (by decide)), if_neg hnumber,
    hprefixed]
  dsimp only
  rw [hword, Option.bind_some]
  dsimp only
  rw [skip?_self hrest.isSolid, Option.bind_some]

/-! ## Fields -/

theorem beginsWithField_eq_true {blanks : List Char} (hblanks : ∀ c ∈ blanks, isBlank c = true)
    (hw : w.IsReadable) (more : List Char) :
    beginsWithField (blanks ++ (wordText w ++ ':' :: more)) = true := by
  have hcolon : EndsValue (':' :: more) := .cons rfl
  have hsolid : IsSolid (wordText w ++ ':' :: more) := by
    obtain ⟨c, cs, htext, hc⟩ := exists_wordText hw
    rw [htext]
    exact (begins_of_isMarkedPart (isMarkedPart_of_beginsWord hc)).isSolid
  rw [beginsWithField, skip?_blanks hblanks hsolid, Option.bind_some, readName?,
    readWord?_wordText hw hcolon.endsWord]
  simp [skip?_self hcolon.endsWord.isSolid]

theorem beginsWithField_wordText (hw : w.IsReadable) (hrest : EndsWord rest)
    (hcolon : rest.head? ≠ some ':') : beginsWithField (wordText w ++ rest) = false := by
  have hsolid : IsSolid (wordText w ++ rest) := by
    obtain ⟨c, cs, htext, hc⟩ := exists_wordText hw
    rw [htext]
    exact (begins_of_isMarkedPart (isMarkedPart_of_beginsWord hc)).isSolid
  rw [beginsWithField, skip?_self hsolid, Option.bind_some, readName?,
    readWord?_wordText hw hrest]
  simp [skip?_self hrest.isSolid, hcolon]

theorem beginsWithField_of_begins (hc : Begins c) (hword : beginsWord c = false) :
    beginsWithField (c :: cs) = false := by
  have hnone : readWord? (c :: cs) = none := by
    have hmark : ∀ more : List Char, c = 'r' → cs = '#' :: more → False := by
      rintro more rfl _
      rw [beginsWord_of_isAlpha rfl] at hword
      cases hword
    rw [readWord?.eq_2 _ _ hmark, if_neg (by rw [← beginsWord, hword]; exact Bool.false_ne_true)]
  rw [beginsWithField, skip?_self hc.isSolid, Option.bind_some, readName?, hnone]
  rfl

/-- A printed value begins with a character of its own, or with a word that does not go on. -/
theorem IsPrintable.beginning {n : Notation} (h : IsPrintable depth n) (k : Nat) :
    (∃ c cs, print k n = c :: cs ∧ Begins c ∧ beginsWord c = false) ∨
      ∃ w cs, print k n = wordText w ++ cs ∧ w.IsReadable ∧ (cs = [] ∨ cs.head? = some '(') := by
  have hmark : ∀ m ∈ ['"', '[', '\x7b', '('], Begins m ∧ beginsWord m = false := by
    have hbegins : ∀ m ∈ ['"', '[', '\x7b', '('],
        isBlank m = false ∧ m ≠ '/' ∧ m ≠ '#' ∧ isAfterValue m = false :=
      List.all_iff_forall_prop.mp (by decide)
    have hmarks : ∀ m ∈ ['"', '[', '\x7b', '('], m ∈ marks :=
      List.all_iff_forall_prop.mp (by decide)
    intro m hm
    obtain ⟨hblank, hslash, hhash, hafter⟩ := hbegins m hm
    refine ⟨⟨hblank, hslash, hhash, hafter⟩, Bool.eq_false_iff.mpr fun hword => ?_⟩
    exact ne_of_isMarkedPart (isMarkedPart_of_beginsWord hword) (hmarks m hm) rfl
  cases h with
  | word hw => exact .inr ⟨_, [], (List.append_nil _).symm, hw, .inl rfl⟩
  | number h =>
    rcases h with ⟨c, cs, rfl, hc, -⟩ | hw
    · exact .inl ⟨c, cs, rfl, begins_of_isMarkedPart (isMarkedPart_of_beginsNumber hc),
        not_beginsWord_of_beginsNumber hc⟩
    · refine .inr ⟨_, [], ?_, hw, .inl rfl⟩
      rw [wordText_ofList, List.append_nil]
      rfl
  | text s => exact .inl ⟨'"', _, rfl, hmark '"' (by decide)⟩
  | @sequence _ items h =>
    obtain ⟨cs, hcs⟩ := exists_block k '[' ']' (items.map (print (k + 1)))
    exact .inl ⟨'[', cs, (print_sequence items).trans hcs, hmark '[' (by decide)⟩
  | @table _ entries hkeys hvalues =>
    obtain ⟨cs, hcs⟩ := exists_block k '\x7b' '\x7d' _
    exact .inl ⟨'\x7b', cs, (print_table entries).trans hcs, hmark '\x7b' (by decide)⟩
  | @tuple _ name? items hname hne h =>
    cases name? with
    | none => exact .inl ⟨'(', _, print_tuple none items, hmark '(' (by decide)⟩
    | some w => exact .inr ⟨w, _, print_tuple (some w) items, hname w rfl, .inr rfl⟩
  | @record _ name? fields hname hne hnames h =>
    obtain ⟨cs, hcs⟩ := exists_block k '(' ')'
      (fields.map fun f => f.1.toList ++ [':', ' '] ++ print (k + 1) f.2)
    have hprint : print k (.record name? fields) = nameText name? ++ '(' :: cs := by
      rw [print_record, hcs]
    cases name? with
    | none => exact .inl ⟨'(', cs, hprint, hmark '(' (by decide)⟩
    | some w => exact .inr ⟨w, '(' :: cs, hprint, hname w rfl, .inr rfl⟩

theorem IsPrintable.begins {n : Notation} (h : IsPrintable depth n) (k : Nat) :
    ∃ c cs, print k n = c :: cs ∧ Begins c := by
  rcases h.beginning k with ⟨c, cs, hprint, hc, -⟩ | ⟨w, cs, hprint, hw, -⟩
  · exact ⟨c, cs, hprint, hc⟩
  · obtain ⟨c, more, htext, hc⟩ := exists_wordText hw
    refine ⟨c, more ++ cs, ?_, begins_of_isMarkedPart (isMarkedPart_of_beginsWord hc)⟩
    rw [hprint, htext, List.cons_append]

/-- No printed value that no colon follows is taken for a field. -/
theorem IsPrintable.beginsWithField {n : Notation} (h : IsPrintable depth n)
    (hrest : EndsValue rest) (hcolon : rest.head? ≠ some ':') :
    beginsWithField (print k n ++ rest) = false := by
  rcases h.beginning k with ⟨c, cs, hprint, hc, hword⟩ | ⟨w, cs, hprint, hw, rfl | hopen⟩
  · rw [hprint, List.cons_append]
    exact beginsWithField_of_begins hc hword
  · rw [hprint, List.append_nil]
    exact beginsWithField_wordText hw hrest.endsWord hcolon
  · obtain ⟨more, rfl⟩ := List.head?_eq_some_iff.mp hopen
    have hend : EndsWord ('(' :: (more ++ rest)) := fun d hd => .inr (Option.some.inj hd).symm
    have hne : ('(' :: (more ++ rest)).head? ≠ some ':' := by simp
    rw [hprint, List.append_assoc, List.cons_append]
    exact beginsWithField_wordText hw hend hne

/-! ## Values with values in them -/

theorem readsAs_name {name : String} (hname : (Word.plain name).IsReadable) :
    ReadsAs readName? name.toList name := by
  refine ⟨?_, fun rest hrest => ?_⟩
  · obtain ⟨c, cs, htext, hc⟩ := exists_wordText hname
    exact ⟨c, cs, htext, begins_of_isMarkedPart (isMarkedPart_of_beginsWord hc)⟩
  · have hread := readWord?_wordText hname hrest.endsWord
    exact congrArg (Option.map _) hread

theorem readValue?_sequence {items : List Notation}
    (h : ∀ n ∈ items, ReadsAs (readValue? depth) (print (k + 1) n) (asRead n))
    (rest : List Char) :
    readValue? (depth + 1) (print k (.sequence items) ++ rest) =
      some (asRead (.sequence items), rest) := by
  obtain ⟨inside, htext, hread, -⟩ := readItems?_block k '[' ']' rfl h rest
  rw [print_sequence, htext, readValue?_cons (by decide) (by decide) (by simp),
    if_neg (by decide), if_pos rfl, asRead_sequence, nested?, Option.bind_some, hread]
  rfl

theorem readValue?_table {entries : List (Notation × Notation)}
    (hkeys : ∀ e ∈ entries, ReadsAs (readValue? depth) (print (k + 1) e.1) (asRead e.1))
    (hvalues : ∀ e ∈ entries, ReadsAs (readValue? depth) (print (k + 1) e.2) (asRead e.2))
    (rest : List Char) :
    readValue? (depth + 1) (print k (.table entries) ++ rest) =
      some (asRead (.table entries), rest) := by
  obtain ⟨inside, htext, hread, -⟩ := readItems?_block k '\x7b' '\x7d' rfl
    (fun e he => (hkeys e he).pair (hvalues e he)) rest
  rw [print_table, htext, readValue?_cons (by decide) (by decide) (by simp),
    if_neg (by decide), if_neg (by decide), if_pos rfl, asRead_table, nested?, Option.bind_some,
    hread]
  rfl

/-- What stands in parentheses, under a name or not, is read as a group. -/
theorem readValue?_group {name? : Option Word} (hname : ∀ w ∈ name?, w.IsReadable)
    (hinner : inner.head? ≠ some ')') :
    readValue? (depth + 1) (nameText name? ++ '(' :: inner) =
      readGroup? (readValue? depth) name? inner := by
  cases name? with
  | none =>
    rw [nameText, Option.map_none, Option.getD_none, List.nil_append,
      readValue?_cons (by decide) (by decide) fun _ => hinner, if_pos rfl]
    rfl
  | some w =>
    have hend : EndsWord ('(' :: inner) := fun d hd => .inr (Option.some.inj hd).symm
    exact readValue?_wordText (hname w rfl) hend

theorem readValue?_record {name? : Option Word} {fields : List (String × Notation)}
    (hname : ∀ w ∈ name?, w.IsReadable) (hne : fields ≠ [])
    (hnames : ∀ f ∈ fields, (Word.plain f.1).IsReadable)
    (h : ∀ f ∈ fields, ReadsAs (readValue? depth) (print (k + 1) f.2) (asRead f.2))
    (rest : List Char) :
    readValue? (depth + 1) (print k (.record name? fields) ++ rest) =
      some (asRead (.record name? fields), rest) := by
  obtain ⟨inside, htext, hread, hhead⟩ := readItems?_block k '(' ')' rfl
    (fun f hf => (readsAs_name (hnames f hf)).pair (h f hf)) rest
  obtain ⟨f, more, rfl⟩ := List.exists_cons_of_ne_nil hne
  obtain ⟨after, hinside⟩ := hhead f rfl
  have hblanks : ∀ c ∈ '\n' :: margin (k + 1), isBlank c = true :=
    List.forall_mem_cons.mpr ⟨rfl, fun c hc => isBlank_of_mem_margin hc⟩
  have hfield : beginsWithField inside = true := by
    have htrue := beginsWithField_eq_true hblanks (hnames f List.mem_cons_self)
      (' ' :: print (k + 1) f.2 ++ after)
    rw [hinside, ← htrue]
    simp [wordText, Word.plain]
  have hopen : inside.head? ≠ some ')' := by simp [hinside]
  rw [print_record, List.append_assoc, htext, readValue?_group hname hopen, readGroup?,
    if_pos hfield, hread, asRead_record, fieldsAsRead_eq]
  rfl

theorem readValue?_tuple {name? : Option Word} {items : List Notation}
    (hname : ∀ w ∈ name?, w.IsReadable) (hne : items ≠ [])
    (hitems : ∀ n ∈ items, IsPrintable depth n)
    (h : ∀ n ∈ items, ReadsAs (readValue? depth) (print k n) (asRead n)) (rest : List Char) :
    readValue? (depth + 1) (print k (.tuple name? items) ++ rest) =
      some (asRead (.tuple name? items), rest) := by
  have htext : print k (.tuple name? items) ++ rest =
      nameText name? ++ '(' :: ([',', ' '].intercalate (items.map (print k)) ++ ')' :: rest) := by
    simp [print_tuple]
  have hlength : items.length <
      ([',', ' '].intercalate (items.map (print k)) ++ ')' :: rest).length + 1 := by
    have hrow := length_le_row (items.map (print k)) fun t ht => by
      obtain ⟨n, hn, rfl⟩ := List.mem_map.mp ht
      obtain ⟨c, cs, hc, -⟩ := (h n hn).begins
      rw [hc]
      exact List.cons_ne_nil _ _
    rw [List.length_map] at hrow
    rw [List.length_append]
    omega
  have hread : readItems? (readValue? depth) ')' _
      ([] ++ ([',', ' '].intercalate (items.map (print k)) ++ ')' :: rest)) =
        some (items.map asRead, rest) :=
    readItems?_row rfl (by decide) h hne (fun c hc => absurd hc List.not_mem_nil) hlength
  obtain ⟨n, more, rfl⟩ := List.exists_cons_of_ne_nil hne
  obtain ⟨after, hrow, hend, hcolon⟩ : ∃ after,
      [',', ' '].intercalate ((n :: more).map (print k)) ++ ')' :: rest = print k n ++ after ∧
        EndsValue after ∧ after.head? ≠ some ':' := by
    cases more with
    | nil => exact ⟨')' :: rest, by simp [List.intercalate], .cons rfl, by simp⟩
    | cons m more =>
      exact ⟨',' :: ' ' :: ([',', ' '].intercalate ((m :: more).map (print k)) ++ ')' :: rest),
        by simp [List.intercalate], .cons rfl, by simp⟩
  have hfirst := hitems n List.mem_cons_self
  have hfield : beginsWithField
      ([',', ' '].intercalate ((n :: more).map (print k)) ++ ')' :: rest) = false := by
    rw [hrow]
    exact hfirst.beginsWithField hend hcolon
  have hopen : ([',', ' '].intercalate ((n :: more).map (print k)) ++ ')' :: rest).head? ≠
      some ')' := by
    obtain ⟨c, cs, hc, hbegins⟩ := hfirst.begins k
    rw [hrow, hc, List.cons_append, List.head?_cons]
    intro hclose
    have hafter := hbegins.after
    rw [Option.some.inj hclose] at hafter
    cases hafter
  rw [List.nil_append] at hread
  rw [htext, readValue?_group hname hopen, readGroup?, hfield, if_neg Bool.false_ne_true, hread,
    asRead_tuple]
  rfl

/-- A printed value is read as what it is, wherever it stands. -/
theorem IsPrintable.readsAs {n : Notation} (h : IsPrintable depth n) (k : Nat) :
    ReadsAs (readValue? depth) (print k n) (asRead n) := by
  refine ⟨h.begins k, fun rest hrest => ?_⟩
  induction h generalizing k rest with
  | word hw =>
    exact (readValue?_wordText hw hrest.endsWord).trans (wordValue?_of_endsValue hrest _)
  | @number depth digits h =>
    rcases h with ⟨c, cs, rfl, hc, hcs⟩ | hw
    · rw [asRead_number, List.head?_cons, Option.any_some, if_pos hc]
      exact readValue?_number hc hcs hrest
    · obtain ⟨c, cs, htext, hc⟩ := exists_wordText hw
      have hnumber : beginsNumber c = false := by
        refine Bool.eq_false_iff.mpr fun hnumber => ?_
        rw [not_beginsWord_of_beginsNumber hnumber] at hc
        cases hc
      have hread : readValue? depth (wordText (.plain (String.ofList digits)) ++ rest) =
          some (.word (.plain (String.ofList digits)), rest) :=
        (readValue?_wordText hw hrest.endsWord).trans (wordValue?_of_endsValue hrest _)
      rw [wordText_ofList] at hread htext
      rw [asRead_number, htext, List.head?_cons, Option.any_some, hnumber,
        if_neg Bool.false_ne_true, ← htext]
      exact hread
  | text s => exact readValue?_text s rest
  | sequence h ih =>
    exact readValue?_sequence (fun n hn => ⟨(h n hn).begins _, ih n hn _⟩) rest
  | table hkeys hvalues ihkeys ihvalues =>
    exact readValue?_table (fun e he => ⟨(hkeys e he).begins _, ihkeys e he _⟩)
      (fun e he => ⟨(hvalues e he).begins _, ihvalues e he _⟩) rest
  | tuple hname hne h ih =>
    exact readValue?_tuple hname hne h (fun n hn => ⟨(h n hn).begins _, ih n hn _⟩) rest
  | record hname hne hnames h ih =>
    exact readValue?_record hname hne hnames (fun f hf => ⟨(h f hf).begins _, ih f hf _⟩) rest

theorem readDialect?_of_begins (hc : Begins c) (fuel : Nat) (dialect : Dialect) :
    readDialect? (fuel + 1) dialect (c :: cs) = some (dialect, c :: cs) := by
  rw [readDialect?, skip?_self hc.isSolid, Option.bind_eq_bind, Option.bind_some]
  split
  next heq => exact absurd (List.cons.inj heq).1 hc.hash
  · rfl

/-- The text of a tree is read as the tree, and switches no extension on. -/
theorem parse?_render {n : Notation} (h : IsPrintable depthLimit n) :
    parse? n.render = some ({}, asRead n) := by
  obtain ⟨c, cs, hprint, hc⟩ := h.begins 0
  have hend : EndsValue [] := fun c hc => absurd hc (Option.not_mem_none c)
  have hread := (h.readsAs 0).read [] hend
  have hdialect : readDialect? ((c :: cs).length + 1) {} (c :: cs) = some ({}, c :: cs) :=
    readDialect?_of_begins hc _ _
  rw [List.append_nil] at hread
  rw [← hprint] at hdialect
  unfold parse? render
  rw [String.toList_ofList]
  dsimp only
  rw [hdialect, Option.bind_eq_bind, Option.bind_some]
  dsimp only
  rw [hread]
  rfl

end MaterialViewer.Notation
