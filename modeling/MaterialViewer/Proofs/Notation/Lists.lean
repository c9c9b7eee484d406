import Mathlib.Data.List.Basic
import MaterialViewer.Proofs.Notation.Parts

/-!
# Proofs: lists in object notation

A list is read from its printed form, one entry on a line or all on one line, if each entry is read
from its text wherever the text stands before an end.
-/

namespace MaterialViewer.Notation

variable {α β : Type} {item : List Char → Option (α × List Char)} {closing : Char} {fuel : Nat}
  {blanks cs rest : List Char}

/-- A text that a value can stand before. -/
def EndsValue (rest : List Char) : Prop := ∀ c ∈ rest.head?, isAfterValue c = true

theorem EndsValue.cons {c : Char} (h : isAfterValue c = true) : EndsValue (c :: cs) := by
  intro d hd
  rwa [← Option.some.inj hd]

theorem EndsValue.endsWord (h : EndsValue rest) : EndsWord rest := fun c hc => .inl (h c hc)

/-- The text is read as a value, wherever it stands before an end. -/
structure ReadsAs (item : List Char → Option (α × List Char)) (text : List Char) (a : α) :
    Prop where
  begins : ∃ c cs, text = c :: cs ∧ Begins c
  read : ∀ rest, EndsValue rest → item (text ++ rest) = some (a, rest)

theorem ReadsAs.isSolid {text : List Char} {a : α} (h : ReadsAs item text a) :
    IsSolid (text ++ cs) := by
  obtain ⟨c, more, rfl, hc⟩ := h.begins
  exact hc.isSolid

/-! ## Items -/

theorem readItems?_closing (hblanks : ∀ c ∈ blanks, isBlank c = true)
    (hclosing : isAfterValue closing = true) :
    readItems? item closing (fuel + 1) (blanks ++ closing :: rest) = some ([], rest) := by
  rw [readItems?, skip?_blanks hblanks (EndsValue.cons hclosing).endsWord.isSolid]
  simp

/-- What comes behind an item decides how the list goes on. -/
theorem readItems?_item {text : List Char} {a : α} (hblanks : ∀ c ∈ blanks, isBlank c = true)
    (hclosing : isAfterValue closing = true) (h : ReadsAs item text a) (fuel : Nat) :
    EndsValue rest → readItems? item closing (fuel + 1) (blanks ++ (text ++ rest)) =
      match rest with
      | ',' :: more =>
        (readItems? item closing fuel more).map fun (others, rest) => (a :: others, rest)
      | d :: more => if d = closing then some ([a], more) else none
      | [] => none := by
  intro hrest
  have hread := h.read rest hrest
  have hskip : skip? rest = some rest := skip?_self hrest.endsWord.isSolid
  rw [readItems?, skip?_blanks hblanks h.isSolid]
  obtain ⟨c, cs, rfl, hc⟩ := h.begins
  have hne : c ≠ closing := by
    rintro rfl
    rw [hc.after] at hclosing
    cases hclosing
  rw [List.cons_append] at hread ⊢
  simp only [Option.bind_eq_bind, Option.bind_some, if_neg hne, hread, hskip]
  split
  next more => exact Option.map_eq_bind.symm
  next d more => simp
  next => rfl

/-- An item with a comma behind it comes before the other items. -/
theorem readItems?_cons {text : List Char} {a : α} (hblanks : ∀ c ∈ blanks, isBlank c = true)
    (hclosing : isAfterValue closing = true) (h : ReadsAs item text a) (fuel : Nat)
    (more : List Char) :
    readItems? item closing (fuel + 1) (blanks ++ (text ++ ',' :: more)) =
      (readItems? item closing fuel more).map fun (others, rest) => (a :: others, rest) :=
  readItems?_item hblanks hclosing h fuel (.cons rfl)

/-- The last item may do without a comma. -/
theorem readItems?_last {text : List Char} {a : α} (hblanks : ∀ c ∈ blanks, isBlank c = true)
    (hclosing : isAfterValue closing = true) (hcomma : closing ≠ ',') (h : ReadsAs item text a)
    (fuel : Nat) (rest : List Char) :
    readItems? item closing (fuel + 1) (blanks ++ (text ++ closing :: rest)) =
      some ([a], rest) := by
  rw [readItems?_item hblanks hclosing h fuel (.cons hclosing)]
  split
  next heq => exact absurd (List.cons.inj heq).1 hcomma
  next heq =>
    obtain ⟨rfl, rfl⟩ := List.cons.inj heq
    exact if_pos rfl
  next heq => cases heq

/-! ## Pairs -/

/-- A key and a value with a colon and a blank between them. -/
theorem ReadsAs.pair {key : List Char → Option (α × List Char)}
    {value : List Char → Option (β × List Char)} {k v : List Char} {a : α} {b : β}
    (hk : ReadsAs key k a) (hv : ReadsAs value v b) :
    ReadsAs (readPair? key value) (k ++ [':', ' '] ++ v) (a, b) := by
  have hblank : ∀ c ∈ [' '], isBlank c = true := List.forall_mem_singleton.mpr rfl
  refine ⟨?_, fun rest hrest => ?_⟩
  · obtain ⟨c, cs, rfl, hc⟩ := hk.begins
    exact ⟨c, _, rfl, hc⟩
  · have hcolon : skip? (':' :: ' ' :: (v ++ rest)) = some (':' :: ' ' :: (v ++ rest)) :=
      skip?_self (EndsValue.cons rfl).endsWord.isSolid
    have hspace : skip? (' ' :: (v ++ rest)) = some (v ++ rest) := skip?_blanks hblank hv.isSolid
    have hkey := hk.read (':' :: ' ' :: (v ++ rest)) (.cons rfl)
    have htext : k ++ [':', ' '] ++ v ++ rest = k ++ ':' :: ' ' :: (v ++ rest) := by simp
    rw [htext, readPair?]
    simp only [Option.bind_eq_bind, Option.bind_some, hkey, hcolon, hspace, hv.read rest hrest]
    rfl

/-! ## Blocks and rows -/

section

variable {text : β → List Char} {value : β → α} {entries : List β}

theorem readItems?_lines (hclosing : isAfterValue closing = true)
    (h : ∀ b ∈ entries, ReadsAs item (text b) (value b)) (inner outer : Nat)
    (hfuel : entries.length < fuel) :
    readItems? item closing fuel
        ('\n' :: ((entries.map text).flatMap fun entry => margin inner ++ entry ++ [',', '\n']) ++
          margin outer ++ closing :: rest) =
      some (entries.map value, rest) := by
  obtain ⟨fuel, rfl⟩ := Nat.exists_eq_add_one_of_ne_zero (Nat.ne_zero_of_lt hfuel)
  have hblank : ∀ depth, ∀ c ∈ '\n' :: margin depth, isBlank c = true :=
    fun depth => List.forall_mem_cons.mpr ⟨rfl, fun c hc => isBlank_of_mem_margin hc⟩
  induction entries generalizing fuel with
  | nil => exact readItems?_closing (hblank outer) hclosing
  | cons b entries ih =>
    have hlength : entries.length < fuel := Nat.lt_of_succ_lt_succ hfuel
    obtain ⟨fuel, rfl⟩ := Nat.exists_eq_add_one_of_ne_zero (Nat.ne_zero_of_lt hlength)
    have hrest := ih (fun b hb => h b (List.mem_cons_of_mem _ hb)) fuel hlength
    have hfirst := readItems?_cons (hblank inner) hclosing (h b List.mem_cons_self) (fuel + 1)
      ('\n' :: ((entries.map text).flatMap fun entry => margin inner ++ entry ++ [',', '\n']) ++
        margin outer ++ closing :: rest)
    rw [hrest] at hfirst
    simpa [List.append_assoc] using hfirst

theorem readItems?_row (hclosing : isAfterValue closing = true) (hcomma : closing ≠ ',')
    (h : ∀ b ∈ entries, ReadsAs item (text b) (value b)) (hne : entries ≠ [])
    (hblanks : ∀ c ∈ blanks, isBlank c = true) (hfuel : entries.length < fuel) :
    readItems? item closing fuel
        (blanks ++ ([',', ' '].intercalate (entries.map text) ++ closing :: rest)) =
      some (entries.map value, rest) := by
  obtain ⟨fuel, rfl⟩ := Nat.exists_eq_add_one_of_ne_zero (Nat.ne_zero_of_lt hfuel)
  induction entries generalizing fuel blanks with
  | nil => exact absurd rfl hne
  | cons b entries ih =>
    cases entries with
    | nil =>
      have hlast := readItems?_last hblanks hclosing hcomma (h b List.mem_cons_self) fuel rest
      simpa [List.intercalate] using hlast
    | cons b' entries =>
      have hlength : (b' :: entries).length < fuel := Nat.lt_of_succ_lt_succ hfuel
      obtain ⟨fuel, rfl⟩ := Nat.exists_eq_add_one_of_ne_zero (Nat.ne_zero_of_lt hlength)
      have hspace : ∀ c ∈ [' '], isBlank c = true := List.forall_mem_singleton.mpr rfl
      have hrest := ih (fun b hb => h b (List.mem_cons_of_mem _ hb)) (List.cons_ne_nil _ _) hspace
        fuel hlength
      have hfirst := readItems?_cons hblanks hclosing (h b List.mem_cons_self) (fuel + 1)
        ([' '] ++ ([',', ' '].intercalate ((b' :: entries).map text) ++ closing :: rest))
      rw [hrest] at hfirst
      simpa [List.intercalate] using hfirst

theorem length_le_lines (depth : Nat) (texts : List (List Char)) :
    texts.length ≤ (texts.flatMap fun entry => margin depth ++ entry ++ [',', '\n']).length := by
  induction texts with
  | nil => exact Nat.le_refl _
  | cons t texts ih =>
    rw [List.flatMap_cons, List.length_append, List.length_append, List.length_cons,
      List.length_cons]
    omega

theorem length_le_row (texts : List (List Char)) (h : ∀ t ∈ texts, t ≠ []) :
    texts.length ≤ ([',', ' '].intercalate texts).length := by
  induction texts with
  | nil => exact Nat.le_refl _
  | cons t texts ih =>
    have ht : 0 < t.length := List.length_pos_of_ne_nil (h t List.mem_cons_self)
    have hrest := ih fun t ht => h t (List.mem_cons_of_mem _ ht)
    cases texts with
    | nil => simpa [List.intercalate] using Nat.succ_le_of_lt ht
    | cons t' texts =>
      simp only [List.intercalate, List.intersperse_cons_cons, List.flatten_cons,
        List.length_append, List.length_cons] at hrest ⊢
      omega

/-- Entries on lines of their own are read behind the opening bracket, with as many steps as there
are characters. -/
theorem readItems?_block (depth : Nat) (opening closing : Char)
    (hclosing : isAfterValue closing = true) (h : ∀ b ∈ entries, ReadsAs item (text b) (value b))
    (rest : List Char) : ∃ inside,
      block depth opening closing (entries.map text) ++ rest = opening :: inside ∧
      readItems? item closing (inside.length + 1) inside = some (entries.map value, rest) ∧
      ∀ b ∈ entries.head?, ∃ more, inside = '\n' :: margin (depth + 1) ++ (text b ++ more) := by
  cases entries with
  | nil =>
    have hblanks : ∀ c ∈ [], isBlank c = true := fun _ hc => absurd hc List.not_mem_nil
    exact ⟨closing :: rest, rfl, readItems?_closing hblanks hclosing, fun b hb => nomatch hb⟩
  | cons b entries =>
    refine ⟨_, ?_, readItems?_lines hclosing h (depth + 1) depth ?_, fun d hd => ?_⟩
    · simp [block]
    · have hlines := length_le_lines (depth + 1) ((b :: entries).map text)
      rw [List.length_map] at hlines
      simp only [List.length_append, List.length_cons] at hlines ⊢
      omega
    · rw [← Option.some.inj hd]
      refine ⟨',' :: '\n' :: (((entries.map text).flatMap
        fun entry => margin (depth + 1) ++ entry ++ [',', '\n']) ++ margin depth ++
          closing :: rest), ?_⟩
      simp

end

end MaterialViewer.Notation
