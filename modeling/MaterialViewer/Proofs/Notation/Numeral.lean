import MaterialViewer.Notation.Numeral
import MaterialViewer.Proofs.Number.Decimal

/-!
# Proofs: numbers in object notation

The plain text of a natural number is read as an integer of no kind in particular, and the text of a
single as a number with a fraction: it has none of the characters of a name.
-/

namespace MaterialViewer.Notation

open Number (natText signText digitsText)

variable {n : Nat} {c : Char} {cs : List Char} {x : Single}

/-! ## Natural numbers -/

theorem hexDigit?_of_isDigit (hc : c.isDigit = true) :
    Quoted.hexDigit? c = some (c.toNat - '0'.toNat) ∧ c.toNat - '0'.toNat < 10 := by
  have hzero : '0'.toNat = 48 := rfl
  have hle := (Text.toNat_of_isDigit hc).2
  simp only [Char.isDigit, Bool.and_eq_true, decide_eq_true_eq] at hc
  exact ⟨if_pos hc, by omega⟩

theorem ne_of_isDigit {d : Char} (hc : c.isDigit = true) (hd : d.isDigit = false) : c ≠ d := by
  rintro rfl
  rw [hc] at hd
  cases hd

theorem readDigits?_digits (hne : cs ≠ []) (h : ∀ c ∈ cs, c.isDigit = true) :
    readDigits? 10 cs = some (Nat.ofDigitChars 10 cs 0) := by
  have hstart : ¬ (cs.isEmpty = true ∨ cs.head? = some '_') := by
    rintro (hempty | hhead)
    · exact hne (List.isEmpty_iff.mp hempty)
    · exact absurd (h _ (List.mem_of_mem_head? hhead)) (by decide)
  have hfilter : cs.filter (· ≠ '_') = cs :=
    List.filter_eq_self.mpr fun c hc => decide_eq_true (ne_of_isDigit (h c hc) (by decide))
  rw [readDigits?, if_neg hstart, hfilter]
  generalize (0 : Nat) = acc
  clear hne hstart hfilter
  induction cs generalizing acc with
  | nil => rfl
  | cons c cs ih =>
    obtain ⟨hdigit, hlt⟩ := hexDigit?_of_isDigit (h c List.mem_cons_self)
    have hrest := ih (fun d hd => h d (List.mem_cons_of_mem _ hd))
      (10 * acc + (c.toNat - '0'.toNat))
    rw [List.foldlM_cons, hdigit, Nat.ofDigitChars_cons, ← hrest]
    simp only [Option.bind_eq_bind, Option.bind_some, guard, if_pos hlt]
    rfl

/-- Digits alone are an integer without sign, base and kind. -/
theorem read?_digits (hne : cs ≠ []) (h : ∀ c ∈ cs, c.isDigit = true) :
    Integer.read? cs = some ⟨false, Nat.ofDigitChars 10 cs 0, none⟩ := by
  obtain ⟨c, rest, rfl⟩ := List.exists_cons_of_ne_nil hne
  have hc : c.isDigit = true := h c List.mem_cons_self
  have hsign : readSign (c :: rest) = (false, c :: rest) := by
    unfold readSign
    split
    next heq => exact absurd (List.cons.inj heq).1 (ne_of_isDigit hc (by decide))
    next heq => exact absurd (List.cons.inj heq).1 (ne_of_isDigit hc (by decide))
    · rfl
  have hspan : (c :: rest).span isDigitPart = (c :: rest, []) := by
    refine Text.span_self fun d hd => ?_
    rw [isDigitPart, (hexDigit?_of_isDigit (h d hd)).1]
    rfl
  have hbase : readBase (c :: rest) = (10, c :: rest) := by
    have hsecond : ∀ d more, rest = d :: more → d.isDigit = true := by
      rintro d more rfl
      exact h d (List.mem_cons_of_mem _ List.mem_cons_self)
    unfold readBase
    split
    next heq => exact absurd rfl (ne_of_isDigit (hsecond _ _ (List.cons.inj heq).2) (by decide))
    next heq => exact absurd rfl (ne_of_isDigit (hsecond _ _ (List.cons.inj heq).2) (by decide))
    next heq => exact absurd rfl (ne_of_isDigit (hsecond _ _ (List.cons.inj heq).2) (by decide))
    · rfl
  have hkind : IntegerKind.ofName? [] = none := by decide
  rw [Integer.read?, hsign]
  simp only [hspan, hkind, hbase, readDigits?_digits hne h]
  rfl

/-- A natural number in the range is read from its text. -/
theorem toNat?_natText {bits : Nat} (hn : n < 2 ^ bits) :
    (Integer.read? (natText n)).bind (·.toNat? bits) = some n := by
  have hne : natText n ≠ [] := Nat.toDigits_ne_nil
  rw [read?_digits hne fun c => Number.isDigit_of_mem_natText, Number.ofDigitChars_natText]
  simp [Integer.toNat?, IntegerKind.contains, hn]

/-! ## Singles -/

theorem isFractionPart_of_isDigit (hc : c.isDigit = true) : isFractionPart c = true := by
  rw [isFractionPart, hc, Bool.true_or]

theorem dropUnderscores?_of_not_mem (h : '_' ∉ cs) (allowed : Bool) :
    dropUnderscores? allowed cs = some cs := by
  induction cs generalizing allowed with
  | nil => rfl
  | cons c cs ih =>
    obtain ⟨hc, hcs⟩ := List.ne_and_not_mem_of_not_mem_cons h
    rw [dropUnderscores?.eq_3 _ _ _ (Ne.symm hc), ih hcs]
    rfl

/-- A text that has only characters of a fraction is neither a name, nor has it a kind. -/
theorem readFraction?_of_parts (kind : String) (h : ∀ c ∈ cs, isFractionPart c = true)
    (hno : '_' ∉ cs) : readFraction? kind cs = Number.readSingle? cs := by
  have hnamed : ∀ (word : String) (d : Char), d ∈ word.toList → isFractionPart d = false →
      (decide (cs = word.toList) || decide (cs = (word ++ kind).toList)) = false := by
    intro word d hd hpart
    have hmem : d ∉ cs := fun hmem => by rw [h d hmem] at hpart; cases hpart
    refine Bool.or_eq_false_iff.mpr ⟨decide_eq_false ?_, decide_eq_false ?_⟩
    · rintro rfl
      exact hmem hd
    · rintro rfl
      exact hmem (by rw [String.toList_append]; exact List.mem_append_left _ hd)
  unfold readFraction?
  simp only [hnamed "inf" 'n' (by decide) (by decide), hnamed "+inf" 'n' (by decide) (by decide),
    hnamed "-inf" 'n' (by decide) (by decide), hnamed "NaN" 'N' (by decide) (by decide),
    hnamed "+NaN" 'N' (by decide) (by decide), hnamed "-NaN" 'N' (by decide) (by decide),
    Bool.or_self, Bool.false_eq_true, if_false, Text.span_self h, true_or, if_true,
    dropUnderscores?_of_not_mem hno, Option.bind_some]

/-- The text of a finite single is read as that single. -/
theorem readSingle?_signed (hx : x.isFinite = true) (places : Nat) :
    readSingle? (signText x ++ digitsText places x) = some x := by
  have hchars : ∀ c ∈ signText x ++ digitsText places x, c.isDigit = true ∨ c = '.' ∨ c = '-' := by
    intro c hc
    rcases List.mem_append.mp hc with hc | hc
    · unfold signText at hc
      split at hc
      · exact .inr (.inr (List.mem_singleton.mp hc))
      · exact absurd hc List.not_mem_nil
    · exact (Number.mem_digitsText hc).imp_right .inl
  have hparts : ∀ c ∈ signText x ++ digitsText places x, isFractionPart c = true := by
    intro c hc
    rcases hchars c hc with hc | rfl | rfl
    · exact isFractionPart_of_isDigit hc
    · rfl
    · rfl
  have hno : '_' ∉ signText x ++ digitsText places x :=
    fun hmem => absurd (hchars _ hmem) (by decide)
  rw [readSingle?, readFraction?_of_parts "f32" hparts hno, Number.readSingle?_signed hx]

end MaterialViewer.Notation
