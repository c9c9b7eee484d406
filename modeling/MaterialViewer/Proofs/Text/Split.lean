import Mathlib.Data.List.Infix
import Mathlib.Data.List.TakeDrop
import Mathlib.Data.List.TakeWhile
import MaterialViewer.Text.Split

/-!
# Proofs: cutting texts

Where a text is cut that was put together from parts: at separators that are in none of the parts,
behind the characters of a kind that the next part does not begin with, at the first place of a
pattern, and where the characters to be trimmed end. Fields that were joined to a list are found
again as they were.
-/

namespace MaterialViewer.Text

theorem map_ofList_map_toList (texts : List String) :
    (texts.map String.toList).map String.ofList = texts := by
  rw [List.map_map]
  exact (List.map_congr_left fun _ _ => String.ofList_toList).trans (List.map_id _)

theorem map_toList_map_ofList (texts : List (List Char)) :
    (texts.map String.ofList).map String.toList = texts := by
  rw [List.map_map]
  exact (List.map_congr_left fun _ _ => String.toList_ofList).trans (List.map_id _)

/-- The codes of the ten digits. -/
theorem toNat_of_isDigit {c : Char} (hc : c.isDigit = true) : 48 ≤ c.toNat ∧ c.toNat ≤ 57 := by
  simp only [Char.isDigit, Bool.and_eq_true, decide_eq_true_eq] at hc
  exact ⟨UInt32.le_iff_toNat_le.mp hc.1, UInt32.le_iff_toNat_le.mp hc.2⟩

variable {sep : Char} {front back cs : List Char} {p : Char → Bool}

theorem splitOn_of_not_mem (h : sep ∉ cs) : splitOn sep cs = [cs] := by
  induction cs with
  | nil => rfl
  | cons c cs ih =>
    have hc : c ≠ sep := fun heq => h (heq ▸ List.mem_cons_self)
    rw [splitOn, if_neg hc, ih fun hmem => h (List.mem_cons_of_mem c hmem)]

theorem splitOn_append (h : sep ∉ front) :
    splitOn sep (front ++ sep :: back) = front :: splitOn sep back := by
  induction front with
  | nil => rw [List.nil_append, splitOn, if_pos rfl]
  | cons c front ih =>
    have hc : c ≠ sep := fun heq => h (heq ▸ List.mem_cons_self)
    rw [List.cons_append, splitOn, if_neg hc, ih fun hmem => h (List.mem_cons_of_mem c hmem)]

/-- The parts of two texts with a separator between them are the parts of both. -/
theorem splitOn_append_splitOn :
    splitOn sep (front ++ sep :: back) = splitOn sep front ++ splitOn sep back := by
  induction front with
  | nil =>
    rw [List.nil_append, splitOn, splitOn, if_pos rfl]
    rfl
  | cons c front ih =>
    rw [List.cons_append, splitOn, splitOn, ih]
    split
    · rw [List.cons_append]
    · cases hfront : splitOn sep front with
      | nil => exact absurd hfront (splitOn_ne_nil sep front)
      | cons part parts => rw [List.cons_append, List.cons_append]

theorem not_mem_of_mem_splitOn {part : List Char} (h : part ∈ splitOn sep cs) : sep ∉ part := by
  induction cs generalizing part with
  | nil =>
    rw [List.mem_singleton.mp h]
    exact List.not_mem_nil
  | cons c cs ih =>
    rw [splitOn] at h
    split at h
    · rcases List.mem_cons.mp h with rfl | h
      · exact List.not_mem_nil
      · exact ih h
    · rename_i hc
      split at h
      · rw [List.mem_singleton.mp h]
        simpa using Ne.symm hc
      · rename_i first rest hsplit
        rcases List.mem_cons.mp h with rfl | h
        · have hfirst := ih (hsplit ▸ List.mem_cons_self)
          simpa [Ne.symm hc] using hfirst
        · exact ih (hsplit ▸ List.mem_cons_of_mem _ h)

/-- A text that was joined from parts is cut into them again. -/
theorem splitOn_intercalate {parts : List (List Char)} (hne : parts ≠ [])
    (h : ∀ part ∈ parts, sep ∉ part) : splitOn sep ([sep].intercalate parts) = parts := by
  induction parts with
  | nil => exact absurd rfl hne
  | cons part rest ih =>
    have hpart := h part List.mem_cons_self
    cases rest with
    | nil =>
      rw [List.intercalate_singleton]
      exact splitOn_of_not_mem hpart
    | cons other rest =>
      rw [List.intercalate_cons_cons, List.append_assoc, List.singleton_append,
        splitOn_append hpart,
        ih (List.cons_ne_nil _ _) fun p hp => h p (List.mem_cons_of_mem _ hp)]

section Patterns

variable {pattern : List Char}

theorem splitAtFirst?_eq_none_iff : splitAtFirst? pattern cs = none ↔ ¬ pattern <:+: cs := by
  induction cs with
  | nil => by_cases h : pattern = [] <;> simp [splitAtFirst?, h]
  | cons c cs ih =>
    rw [splitAtFirst?, List.infix_cons_iff]
    by_cases hfirst : pattern <+: c :: cs
    · simp [List.isPrefixOf_iff_prefix.mpr hfirst, hfirst]
    · have hno : ¬ pattern.isPrefixOf (c :: cs) = true := mt List.isPrefixOf_iff_prefix.mp hfirst
      rw [if_neg hno, Option.map_eq_none_iff, ih]
      simp [hfirst]

/-- A text is cut at the first place of a pattern: none ends before the one that is cut out. -/
theorem splitAtFirst?_eq_some_iff (hpattern : pattern ≠ []) :
    splitAtFirst? pattern cs = some (front, back) ↔
      cs = front ++ (pattern ++ back) ∧ ¬ pattern <:+: front ++ pattern.dropLast := by
  have hlast : pattern.dropLast.length < pattern.length := by
    rw [List.length_dropLast]
    exact Nat.sub_lt (List.length_pos_iff.mpr hpattern) Nat.one_pos
  have hfront : ∀ front, front ++ pattern.dropLast <+: front ++ (pattern ++ back) := fun front =>
    (List.prefix_append_right_inj front).mpr
      ((List.dropLast_prefix pattern).trans (List.prefix_append pattern back))
  induction cs generalizing front with
  | nil => simp [splitAtFirst?, hpattern]
  | cons c cs ih =>
    rw [splitAtFirst?]
    by_cases hfirst : pattern <+: c :: cs
    · rw [if_pos (List.isPrefixOf_iff_prefix.mpr hfirst), Option.some.injEq, Prod.mk.injEq]
      obtain ⟨rest, hrest⟩ := hfirst
      constructor
      · rintro ⟨rfl, rfl⟩
        refine ⟨by rw [← hrest, List.drop_left, List.nil_append], fun hin => ?_⟩
        rw [List.nil_append] at hin
        exact absurd hin.length_le (by omega)
      · rintro ⟨hcs, hnone⟩
        -- A pattern at the beginning would end before a later place.
        cases front with
        | nil =>
          rw [hcs, List.nil_append, List.drop_left]
          exact ⟨rfl, rfl⟩
        | cons d front =>
          refine absurd (List.IsPrefix.isInfix ?_) hnone
          have hprefix : pattern <+: c :: cs := ⟨rest, hrest⟩
          refine List.prefix_of_prefix_length_le hprefix ?_ ?_
          · exact hcs ▸ hfront (d :: front)
          · simp only [List.length_append, List.length_cons, List.length_dropLast]
            omega
    · rw [if_neg (mt List.isPrefixOf_iff_prefix.mp hfirst)]
      constructor
      · intro h
        obtain ⟨⟨front', back'⟩, hsplit, heq⟩ := Option.map_eq_some_iff.mp h
        obtain ⟨rfl, rfl⟩ := Prod.mk.inj heq
        obtain ⟨rfl, hnone⟩ := ih.mp hsplit
        refine ⟨rfl, fun hin => ?_⟩
        rcases List.infix_cons_iff.mp hin with hin | hin
        · exact hfirst (hin.trans (hfront (c :: front')))
        · exact hnone hin
      · rintro ⟨hcs, hnone⟩
        cases front with
        | nil => exact absurd ⟨back, hcs.symm⟩ hfirst
        | cons d front =>
          obtain ⟨rfl, rfl⟩ := List.cons.inj hcs
          have hrest : ¬ pattern <:+: front ++ pattern.dropLast :=
            fun hin => hnone (hin.trans (List.suffix_cons _ _).isInfix)
          rw [ih.mpr ⟨rfl, hrest⟩]
          rfl

end Patterns

/-- A text is cut at the first place of a pattern whose first character is not in what is before. -/
theorem splitAtFirst?_append {c : Char} {pattern : List Char} (h : c ∉ front) :
    splitAtFirst? (c :: pattern) (front ++ (c :: pattern ++ back)) = some (front, back) := by
  induction front with
  | nil =>
    rw [List.nil_append, List.cons_append, splitAtFirst?, if_pos (by simp)]
    simp
  | cons d front ih =>
    have hd : c ≠ d := fun heq => h (heq ▸ List.mem_cons_self)
    rw [List.cons_append, splitAtFirst?, if_neg (by simp [List.isPrefixOf, hd]),
      ih fun hmem => h (List.mem_cons_of_mem d hmem)]
    rfl

theorem span_append (h : ∀ c ∈ front, p c = true) (hback : ∀ c ∈ back.head?, p c = false) :
    (front ++ back).span p = (front, back) := by
  have hstop : back.takeWhile p = [] ∧ back.dropWhile p = back := by
    cases back with
    | nil => exact ⟨rfl, rfl⟩
    | cons c back =>
      have hc : ¬ p c = true := by rw [hback c rfl]; exact Bool.false_ne_true
      exact ⟨List.takeWhile_cons_of_neg hc, List.dropWhile_cons_of_neg hc⟩
  rw [List.span_eq_takeWhile_dropWhile, List.takeWhile_append_of_pos h, hstop.1,
    List.dropWhile_append_of_pos h, hstop.2, List.append_nil]

theorem span_self (h : ∀ c ∈ cs, p c = true) : cs.span p = (cs, []) := by
  have hspan := span_append h fun c (hc : c ∈ ([] : List Char).head?) =>
    absurd hc (Option.not_mem_none c)
  rwa [List.append_nil] at hspan

theorem dropEndWhile_eq_nil (h : ∀ c ∈ cs, p c = true) : dropEndWhile p cs = [] := by
  induction cs with
  | nil => rfl
  | cons c cs ih =>
    obtain ⟨hc, hcs⟩ := List.forall_mem_cons.mp h
    rw [dropEndWhile, ih hcs]
    exact if_pos hc

/-- Characters at the end are dropped up to the last one that does not satisfy the test. -/
theorem dropEndWhile_append (h : ∀ c ∈ back, p c = true)
    (hlast : ∀ c ∈ cs.getLast?, p c = false) : dropEndWhile p (cs ++ back) = cs := by
  induction cs with
  | nil => exact dropEndWhile_eq_nil h
  | cons c cs ih =>
    rw [List.cons_append, dropEndWhile]
    cases cs with
    | nil =>
      rw [List.nil_append, dropEndWhile_eq_nil h]
      exact if_neg (by rw [hlast c rfl]; exact Bool.false_ne_true)
    | cons d cs =>
      rw [ih fun e he => hlast e (by rwa [List.getLast?_cons_cons])]

/-- What is trimmed off a text that neither begins nor ends with a character to be trimmed. -/
theorem trimWhile_padded (hfront : ∀ c ∈ front, p c = true) (hback : ∀ c ∈ back, p c = true)
    (hfirst : ∀ c ∈ cs.head?, p c = false) (hlast : ∀ c ∈ cs.getLast?, p c = false) :
    trimWhile p (front ++ (cs ++ back)) = cs := by
  rw [trimWhile, List.dropWhile_append_of_pos hfront]
  cases cs with
  | nil =>
    rw [List.nil_append, List.dropWhile_eq_nil_iff.mpr hback]
    rfl
  | cons c cs =>
    have hc : ¬ p c = true := by
      rw [hfirst c rfl]
      exact Bool.false_ne_true
    rw [List.cons_append, List.dropWhile_cons_of_neg hc, ← List.cons_append]
    exact dropEndWhile_append hback hlast

/-! ## Trimming -/

theorem prefix_dropEndWhile (p : Char → Bool) (cs : List Char) : dropEndWhile p cs <+: cs := by
  induction cs with
  | nil => exact List.prefix_refl []
  | cons c cs ih =>
    rw [dropEndWhile]
    split
    · split
      · exact List.nil_prefix
      · exact List.prefix_append [c] cs
    · exact (List.prefix_cons_inj c).mpr ih

theorem last_dropEndWhile : ∀ c ∈ (dropEndWhile p cs).getLast?, p c = false := by
  induction cs with
  | nil => exact nofun
  | cons c cs ih =>
    intro d hd
    rw [dropEndWhile] at hd
    split at hd
    · split at hd
      · cases hd
      · rename_i hc
        obtain rfl := Option.some.inj hd
        simpa using hc
    · rename_i hrest
      cases hrest' : dropEndWhile p cs with
      | nil => exact absurd hrest' hrest
      | cons e es =>
        rw [hrest'] at ih hd
        exact ih d (by rwa [List.getLast?_cons_cons] at hd)

theorem trimWhile_eq_nil_iff : trimWhile p cs = [] ↔ ∀ c ∈ cs, p c = true := by
  constructor
  · intro h
    cases hrest : cs.dropWhile p with
    | nil => exact List.dropWhile_eq_nil_iff.mp hrest
    | cons c rest =>
      have hc : p c = false := by
        have hhead := List.head?_dropWhile_not p cs
        rw [hrest] at hhead
        simpa using hhead
      rw [trimWhile, hrest, dropEndWhile] at h
      split at h
      · simp [hc] at h
      · cases h
  · intro h
    rw [trimWhile, List.dropWhile_eq_nil_iff.mpr h]
    rfl

theorem first_trimWhile : ∀ c ∈ (trimWhile p cs).head?, p c = false := by
  intro c hc
  obtain ⟨rest, hrest⟩ := prefix_dropEndWhile p (cs.dropWhile p)
  have hhead : (cs.dropWhile p).head? = some c := by
    rw [← hrest, List.head?_append]
    simp [show (dropEndWhile p (cs.dropWhile p)).head? = some c from hc]
  have hnot := List.head?_dropWhile_not p cs
  rw [hhead] at hnot
  simpa using hnot

theorem mem_of_mem_trimWhile {c : Char} (h : c ∈ trimWhile p cs) : c ∈ cs :=
  (List.dropWhile_suffix p).subset ((prefix_dropEndWhile p _).subset h)

/-! ## Fields of a list -/

/-- A text can be one of the fields of a list: it is not empty, has no separator and neither begins
nor ends with a blank. -/
structure IsField (sep : Char) (cs : List Char) : Prop where
  ne_nil : cs ≠ []
  plain : sep ∉ cs
  first : ∀ c ∈ cs.head?, isBlank c = false
  last : ∀ c ∈ cs.getLast?, isBlank c = false

theorem isField_of_solid (hne : cs ≠ []) (h : ∀ c ∈ cs, c ≠ sep ∧ isBlank c = false) :
    IsField sep cs where
  ne_nil := hne
  plain hmem := (h sep hmem).1 rfl
  first c hc := (h c (List.mem_of_mem_head? hc)).2
  last c hc := (h c (List.mem_of_getLast? hc)).2

/-- The fields of a list are the parts between separators that are not blank, trimmed. -/
theorem fieldChars_eq : fieldChars sep cs =
    ((splitOn sep cs).filter fun part => !part.all isBlank).map (trimWhile isBlank) := by
  rw [fieldChars, List.filter_map]
  refine congrArg _ (List.filter_congr fun part _ => ?_)
  have hblank : part.all isBlank = true ↔ trimWhile isBlank part = [] := by
    rw [trimWhile_eq_nil_iff, List.all_eq_true]
  cases hall : part.all isBlank <;> simp_all

theorem isField_of_mem_fieldChars {part : List Char} (h : part ∈ fieldChars sep cs) :
    IsField sep part := by
  obtain ⟨hmem, hne⟩ := List.mem_filter.mp h
  obtain ⟨raw, hraw, rfl⟩ := List.mem_map.mp hmem
  refine ⟨by simpa using hne, fun hsep => ?_, first_trimWhile, last_dropEndWhile⟩
  exact not_mem_of_mem_splitOn hraw (mem_of_mem_trimWhile hsep)

theorem IsField.trimWhile_eq (h : IsField sep cs) : trimWhile isBlank cs = cs := by
  have hpadded : trimWhile isBlank ([] ++ (cs ++ [])) = cs :=
    trimWhile_padded (List.forall_mem_nil _) (List.forall_mem_nil _) h.first h.last
  rwa [List.nil_append, List.append_nil] at hpadded

theorem fieldChars_of_isField (h : IsField sep cs) : fieldChars sep cs = [cs] := by
  rw [fieldChars, splitOn_of_not_mem h.plain, List.map_singleton, h.trimWhile_eq]
  exact List.filter_cons_of_pos (by simpa using h.ne_nil)

theorem fieldChars_append : fieldChars sep (front ++ sep :: back) =
    fieldChars sep front ++ fieldChars sep back := by
  rw [fieldChars, splitOn_append_splitOn, List.map_append, List.filter_append]
  rfl

theorem fieldChars_cons_blank {c : Char} (hc : isBlank c = true) (hsep : c ≠ sep) :
    fieldChars sep (c :: cs) = fieldChars sep cs := by
  rw [fieldChars, fieldChars, splitOn, if_neg hsep]
  cases hsplit : splitOn sep cs with
  | nil => exact absurd hsplit (splitOn_ne_nil sep cs)
  | cons part parts =>
    have htrim : trimWhile isBlank (c :: part) = trimWhile isBlank part := by
      rw [trimWhile, List.dropWhile_cons_of_pos hc]
      rfl
    rw [List.map_cons, List.map_cons, htrim]

/-- Fields that are joined with a separator and a blank are found again. -/
theorem fieldChars_intercalate {parts : List (List Char)} (hsep : sep ≠ ' ')
    (h : ∀ part ∈ parts, IsField sep part) :
    fieldChars sep ([sep, ' '].intercalate parts) = parts := by
  induction parts with
  | nil => rfl
  | cons part rest ih =>
    obtain ⟨hpart, hrest⟩ := List.forall_mem_cons.mp h
    cases rest with
    | nil => rw [List.intercalate_singleton, fieldChars_of_isField hpart]
    | cons other rest =>
      have htext : [sep, ' '].intercalate (part :: other :: rest) =
          part ++ sep :: ' ' :: [sep, ' '].intercalate (other :: rest) := by
        rw [List.intercalate_cons_cons, List.append_assoc]
        rfl
      rw [htext, fieldChars_append, fieldChars_of_isField hpart,
        fieldChars_cons_blank (by decide) hsep.symm, ih hrest, List.singleton_append]

/-! ## Texts around a separator -/

/-- Where the text before a separator is a part of the text before another one. -/
theorem separated_of_append {s a b x y : String} (hs : s.toList = [sep]) {tail : List Char}
    (hb : b.toList = a.toList ++ tail) (hx : sep :: x.toList = tail ++ sep :: y.toList) :
    (a = b ∧ x = y) ∨ ∃ t, b = a ++ s ++ t ∧ x = t ++ s ++ y := by
  cases tail with
  | nil =>
    rw [List.append_nil] at hb
    rw [List.nil_append, List.cons.injEq] at hx
    exact .inl ⟨String.toList_injective hb.symm, String.toList_injective hx.2⟩
  | cons c t =>
    rw [List.cons_append, List.cons.injEq] at hx
    obtain ⟨rfl, hx⟩ := hx
    refine .inr ⟨String.ofList t, String.toList_injective ?_, String.toList_injective ?_⟩
    · simp [hb, hs]
    · simp [hx, hs]

/-- Two texts around a separator make the same text as two others if these are the same, or if the
first of one pair goes on, beyond a separator, in the second of the other. -/
theorem separated_eq_iff {s a b x y : String} (hs : s.toList = [sep]) :
    a ++ s ++ x = b ++ s ++ y ↔ (a = b ∧ x = y) ∨ (∃ t, b = a ++ s ++ t ∧ x = t ++ s ++ y) ∨
      ∃ t, a = b ++ s ++ t ∧ y = t ++ s ++ x := by
  constructor
  · intro h
    have hlist := congrArg String.toList h
    simp only [String.toList_append, hs, List.append_assoc, List.singleton_append] at hlist
    rcases List.append_eq_append_iff.mp hlist with ⟨tail, hb, hx⟩ | ⟨tail, ha, hy⟩
    · exact (separated_of_append hs hb hx).imp_right .inl
    · rcases separated_of_append hs ha hy with ⟨hsame, hrest⟩ | hinto
      · exact .inl ⟨hsame.symm, hrest.symm⟩
      · exact .inr (.inr hinto)
  · rintro (⟨rfl, rfl⟩ | ⟨t, rfl, rfl⟩ | ⟨t, rfl, rfl⟩)
    · rfl
    · simp only [String.append_assoc]
    · simp only [String.append_assoc]

end MaterialViewer.Text
