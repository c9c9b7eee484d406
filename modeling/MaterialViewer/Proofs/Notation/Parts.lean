import Mathlib.Data.Bool.AllAny
import MaterialViewer.Notation.Parser
import MaterialViewer.Notation.Printer
import MaterialViewer.Proofs.Text.Split

/-!
# Proofs: the parts of object notation

Where the reader stops in a text that was put together from parts. The parts of words and numbers
are neither blanks nor marks, so that a word or a number ends at the first blank or mark, and blanks
end at the first of all others.
-/

namespace MaterialViewer.Notation

variable {c : Char} {cs rest blanks : List Char}

/-! ## Characters -/

/-- The characters that are part of no word and no number, besides blanks. -/
def marks : List Char := [',', ':', ')', ']', '\x7d', '(', '[', '\x7b', '"', '\'', '#', '/']

theorem isMarkedPart_eq_false (h : c.toNat ∈ marks.map Char.toNat ++ blankCodes) :
    isMarkedPart c = false := by
  have hall : ∀ code ∈ marks.map Char.toNat ++ blankCodes,
      isMarkedPart (Char.ofNat code) = false := by decide +kernel
  have hc := hall c.toNat h
  rwa [Char.ofNat_toNat] at hc

theorem isMarkedPart_of_mem_marks (h : c ∈ marks) : isMarkedPart c = false :=
  isMarkedPart_eq_false (List.mem_append_left _ (List.mem_map_of_mem h))

theorem isMarkedPart_of_isBlank (h : isBlank c = true) : isMarkedPart c = false :=
  isMarkedPart_eq_false (List.mem_append_right _ (List.contains_iff_mem.mp h))

theorem isMarkedPart_of_isWordPart (h : Text.isWordPart c = true) : isMarkedPart c = true := by
  rw [isMarkedPart, h, Bool.true_or]

theorem isWordPart_of_isWordStart (h : Text.isWordStart c = true) : Text.isWordPart c = true := by
  rw [Text.isWordPart, h, Bool.true_or]

theorem isWordPart_of_isDigit (h : c.isDigit = true) : Text.isWordPart c = true := by
  have hdigit : Text.inRanges Text.wordMarkRanges c = true :=
    Text.inRanges_iff.mpr ⟨(0x30, 0x39), List.mem_cons_self, Text.toNat_of_isDigit h⟩
  rw [Text.isWordPart, hdigit, Bool.or_true]

theorem isWordPart_lowLine : Text.isWordPart '_' = true := by
  have hline : Text.inRanges Text.wordMarkRanges '_' = true :=
    Text.inRanges_iff.mpr ⟨(0x5F, 0x5F), List.mem_cons_of_mem _ List.mem_cons_self, by decide⟩
  rw [Text.isWordPart, hline, Bool.or_true]

/-- A character with which a value can begin, so that it is not taken for anything else. -/
structure Begins (c : Char) : Prop where
  blank : isBlank c = false
  slash : c ≠ '/'
  hash : c ≠ '#'
  after : isAfterValue c = false

theorem begins_of_isMarkedPart (h : isMarkedPart c = true) : Begins c := by
  have hmark : c ∉ marks := fun hmem => by rw [isMarkedPart_of_mem_marks hmem] at h; cases h
  refine ⟨?_, ?_, ?_, ?_⟩
  · refine Bool.eq_false_iff.mpr fun hblank => ?_
    rw [isMarkedPart_of_isBlank hblank] at h
    cases h
  · rintro rfl
    exact hmark (by decide)
  · rintro rfl
    exact hmark (by decide)
  · refine Bool.eq_false_iff.mpr fun hafter => hmark ?_
    have hsub : ∀ d ∈ [',', ':', ')', ']', '\x7d'], d ∈ marks :=
      List.all_iff_forall_prop.mp (by decide)
    exact hsub c (List.contains_iff_mem.mp hafter)

/-! ## Blanks -/

/-- A text that begins with neither a blank nor a comment. -/
def IsSolid (cs : List Char) : Prop := ∀ c ∈ cs.head?, isBlank c = false ∧ c ≠ '/'

theorem Begins.isSolid (h : Begins c) : IsSolid (c :: cs) := by
  intro d hd
  rw [← Option.some.inj hd]
  exact ⟨h.blank, h.slash⟩

theorem skipFrom?_blanks (hblanks : ∀ c ∈ blanks, isBlank c = true) (hrest : IsSolid rest)
    {fuel : Nat} (hfuel : blanks.length < fuel) : skipFrom? fuel (blanks ++ rest) = some rest := by
  obtain ⟨fuel, rfl⟩ := Nat.exists_eq_add_one_of_ne_zero (Nat.ne_zero_of_lt hfuel)
  induction blanks generalizing fuel with
  | nil =>
    cases rest with
    | nil => rfl
    | cons c rest =>
      obtain ⟨hblank, hslash⟩ := hrest c rfl
      rw [List.nil_append, skipFrom?.eq_5 _ _ _ (fun _ h => absurd h hslash)
        (fun _ h => absurd h hslash), hblank]
      rfl
  | cons b blanks ih =>
    have hb : isBlank b = true := hblanks b List.mem_cons_self
    have hslash : b ≠ '/' := by
      rintro rfl
      exact absurd hb (by decide)
    have hlength : blanks.length < fuel := Nat.lt_of_succ_lt_succ hfuel
    obtain ⟨fuel, rfl⟩ := Nat.exists_eq_add_one_of_ne_zero (Nat.ne_zero_of_lt hlength)
    rw [List.cons_append, skipFrom?.eq_5 _ _ _ (fun _ h => absurd h hslash)
      (fun _ h => absurd h hslash), if_pos hb]
    exact ih (fun c hc => hblanks c (List.mem_cons_of_mem _ hc)) _ hlength

/-- Blanks are passed over. -/
theorem skip?_blanks (hblanks : ∀ c ∈ blanks, isBlank c = true) (hrest : IsSolid rest) :
    skip? (blanks ++ rest) = some rest := by
  refine skipFrom?_blanks hblanks hrest ?_
  rw [List.length_append]
  omega

theorem skip?_self (hrest : IsSolid rest) : skip? rest = some rest :=
  skip?_blanks (fun _ hc => absurd hc List.not_mem_nil) hrest

theorem isBlank_of_mem_margin {depth : Nat} (hc : c ∈ margin depth) : isBlank c = true := by
  rw [List.eq_of_mem_replicate hc]
  rfl

/-! ## Words -/

/-- A word that is read as written. -/
def Word.IsReadable (w : Word) : Prop :=
  if w.isMarked then w.name ≠ "" ∧ ∀ c ∈ w.name.toList, isMarkedPart c = true
  else ∃ c cs, w.name.toList = c :: cs ∧ (Text.isWordStart c || c = '_') = true ∧
    ∀ d ∈ cs, Text.isWordPart d = true

/-- A text in which no word goes on: it begins with what follows values, or with a parenthesis. -/
def EndsWord (rest : List Char) : Prop := ∀ c ∈ rest.head?, isAfterValue c = true ∨ c = '('

theorem EndsWord.mem_marks (h : EndsWord rest) :
    ∀ c ∈ rest.head?, c ∈ marks ∧ c ≠ '"' ∧ c ≠ '\'' ∧ c ≠ '#' := by
  have hafter : ∀ c ∈ [',', ':', ')', ']', '\x7d'],
      c ∈ marks ∧ c ≠ '"' ∧ c ≠ '\'' ∧ c ≠ '#' :=
    List.all_iff_forall_prop.mp (by decide)
  intro c hc
  rcases h c hc with hc | rfl
  · exact hafter c (List.contains_iff_mem.mp hc)
  · decide

theorem EndsWord.not_part (h : EndsWord rest) : ∀ c ∈ rest.head?, isMarkedPart c = false :=
  fun c hc => isMarkedPart_of_mem_marks (h.mem_marks c hc).1

theorem isWordPart_eq_false (h : isMarkedPart c = false) : Text.isWordPart c = false := by
  refine Bool.eq_false_iff.mpr fun hpart => ?_
  rw [isMarkedPart_of_isWordPart hpart] at h
  cases h

theorem EndsWord.isSolid (h : EndsWord rest) : IsSolid rest := by
  have hall : ∀ d ∈ [',', ':', ')', ']', '\x7d'], isBlank d = false ∧ d ≠ '/' :=
    List.all_iff_forall_prop.mp (by decide)
  intro c hc
  rcases h c hc with hafter | rfl
  · exact hall c (List.contains_iff_mem.mp hafter)
  · decide

/-- What follows a part of a word is no quotation mark and no hash sign. -/
theorem EndsWord.head_append (h : EndsWord rest) (hparts : ∀ d ∈ cs, isMarkedPart d = true) :
    ∀ d ∈ (cs ++ rest).head?, d ≠ '"' ∧ d ≠ '\'' ∧ d ≠ '#' := by
  cases cs with
  | nil => exact fun d hd => (h.mem_marks d hd).2
  | cons c cs =>
    intro d hd
    have hc := hparts c List.mem_cons_self
    rw [← Option.some.inj hd]
    have hne : ∀ m ∈ marks, c ≠ m := by
      rintro m hm rfl
      rw [isMarkedPart_of_mem_marks hm] at hc
      cases hc
    exact ⟨hne _ (by decide), hne _ (by decide), hne _ (by decide)⟩

/-- A word is read up to the next mark. -/
theorem readWord?_wordText {w : Word} (hw : w.IsReadable) (hrest : EndsWord rest) :
    readWord? (wordText w ++ rest) = some (w, rest) := by
  obtain ⟨name, isMarked⟩ := w
  cases isMarked with
  | true =>
    obtain ⟨hne, hparts⟩ := hw
    have hspan : (name.toList ++ rest).span isMarkedPart = (name.toList, rest) :=
      Text.span_append hparts hrest.not_part
    have hempty : name.toList.isEmpty = false := by
      rw [List.isEmpty_eq_false_iff, ne_eq, String.toList_eq_nil_iff]
      exact hne
    simp only [wordText, if_true, List.cons_append, List.nil_append, readWord?, hspan, hempty,
      String.ofList_toList, Bool.false_eq_true, if_false]
  | false =>
    obtain ⟨c, cs, hname, hstart, hparts⟩ := hw
    dsimp only at hname
    have hspan : (cs ++ rest).span Text.isWordPart = (cs, rest) :=
      Text.span_append hparts fun d hd => isWordPart_eq_false (hrest.not_part d hd)
    have hmark : ∀ more : List Char, c = 'r' → cs ++ rest = '#' :: more → False := by
      intro more _ heq
      have hhead := hrest.head_append fun d hd => isMarkedPart_of_isWordPart (hparts d hd)
      rw [heq] at hhead
      exact (hhead '#' rfl).2.2 rfl
    rw [wordText, if_neg Bool.false_ne_true, List.nil_append]
    dsimp only
    rw [hname, List.cons_append, readWord?.eq_2 _ _ hmark, if_pos hstart, hspan]
    dsimp only
    rw [← hname, String.ofList_toList]

theorem readRawText?_eq_none (h : ∀ c ∈ cs.head?, c ≠ '"' ∧ c ≠ '\'' ∧ c ≠ '#') (count : Nat) :
    readRawText? (List.replicate count '#' ++ cs) = none := by
  have hspan : (List.replicate count '#' ++ cs).span (· = '#') = (List.replicate count '#', cs) :=
    Text.span_append (fun c hc => decide_eq_true (List.eq_of_mem_replicate hc))
      fun c hc => decide_eq_false (h c hc).2.2
  rw [readRawText?, hspan]
  dsimp only
  split
  · exact absurd rfl (h _ rfl).1
  · rfl

/-- No word is taken for a text without escapes or for bytes. -/
theorem readPrefixed?_wordText {w : Word} (hw : w.IsReadable) (hrest : EndsWord rest) :
    readPrefixed? (wordText w ++ rest) = none := by
  obtain ⟨name, isMarked⟩ := w
  cases isMarked with
  | true =>
    obtain ⟨hne, hparts⟩ := hw
    have hraw : readRawText? ('#' :: (name.toList ++ rest)) = none :=
      readRawText?_eq_none (hrest.head_append hparts) 1
    rw [wordText, if_pos rfl]
    exact congrArg (Option.map _) hraw
  | false =>
    obtain ⟨c, cs, hname, hstart, hparts⟩ := hw
    dsimp only at hname
    have hparts : ∀ d ∈ cs, isMarkedPart d = true :=
      fun d hd => isMarkedPart_of_isWordPart (hparts d hd)
    have hhead := hrest.head_append hparts
    rw [wordText, if_neg Bool.false_ne_true, List.nil_append]
    dsimp only
    rw [hname, List.cons_append]
    unfold readPrefixed?
    split
    next heq =>
      have hraw : readRawText? (cs ++ rest) = none := readRawText?_eq_none hhead 0
      rw [← (List.cons.inj heq).2, hraw]
      rfl
    next more heq =>
      -- the second letter is part of the word as well, as no mark is one
      obtain ⟨d, cs, rfl⟩ : ∃ d more, cs = d :: more := by
        cases cs with
        | cons d cs => exact ⟨d, cs, rfl⟩
        | nil =>
          rw [List.nil_append] at heq
          have hmark := (hrest.mem_marks 'r' (by rw [(List.cons.inj heq).2]; rfl)).1
          exact absurd hmark (by decide)
      have hmore : cs ++ rest = more := (List.cons.inj (List.cons.inj heq).2).2
      have hhead := hrest.head_append fun e he => hparts e (List.mem_cons_of_mem _ he)
      have hraw : readRawText? (cs ++ rest) = none := readRawText?_eq_none hhead 0
      rw [← hmore, hraw]
      rfl
    next heq =>
      rw [(List.cons.inj heq).2] at hhead
      exact absurd rfl (hhead '"' rfl).1
    next heq =>
      rw [(List.cons.inj heq).2] at hhead
      exact absurd rfl (hhead '\'' rfl).2.1
    · rfl

end MaterialViewer.Notation
