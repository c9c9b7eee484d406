import MaterialViewer.Proofs.Number.Decimal

/-!
# Proofs: the texts of an integer

A natural number is written in one way and read from many texts: zeros and a sign may stand before
its digits. It is read from no others. An integer of 32 bits is read from the text that is written
for it.
-/

namespace MaterialViewer.Number

variable {n d : Nat} {c : Char} {cs : List Char}

/-- A text stands for a natural number: the digits of the number after any number of zeros, and
perhaps a sign before them. -/
def StandsFor (cs : List Char) (n : Nat) : Prop :=
  ∃ (sign : List Char) (zeros : Nat), (sign = [] ∨ sign = ['+']) ∧
    cs = sign ++ (List.replicate zeros '0' ++ natText n)

theorem natText_standsFor (n : Nat) : StandsFor (natText n) n := ⟨[], 0, .inl rfl, rfl⟩

/-! ## Digits -/

theorem isDigit_of_digit? (h : digit? c = some d) : c.isDigit = true := by
  unfold digit? at h
  split at h
  · rename_i hc
    simp only [Char.isDigit, Bool.and_eq_true, decide_eq_true_eq]
    exact hc
  · cases h

theorem isDigit_of_digitsFrom? {acc : Nat} (h : digitsFrom? acc cs = some n) :
    ∀ c ∈ cs, c.isDigit = true := by
  induction cs generalizing acc with
  | nil => exact List.forall_mem_nil _
  | cons c cs ih =>
    obtain ⟨d, hd, hrest⟩ := Option.bind_eq_some_iff.mp h
    exact List.forall_mem_cons.mpr ⟨isDigit_of_digit? hd, ih hrest⟩

theorem exists_digitChar (hc : c.isDigit = true) :
    ∃ d < 10, c = d.digitChar ∧ c.toNat - '0'.toNat = d := by
  obtain ⟨hlow, hhigh⟩ := Text.toNat_of_isDigit hc
  have hzero : '0'.toNat = 48 := rfl
  have hlt : c.toNat - '0'.toNat < 10 := by omega
  refine ⟨c.toNat - '0'.toNat, hlt, Char.toNat_inj.mp ?_, rfl⟩
  rw [Nat.toNat_digitChar_of_lt_ten hlt]
  omega

/-- Digits behind the text of a number other than zero make the text of a number. -/
theorem natText_append {acc : Nat} (hacc : 0 < acc) (hcs : ∀ c ∈ cs, c.isDigit = true) :
    natText acc ++ cs = natText (Nat.ofDigitChars 10 cs acc) := by
  induction cs generalizing acc with
  | nil => rw [List.append_nil, Nat.ofDigitChars_nil]
  | cons c cs ih =>
    obtain ⟨hc, hcs⟩ := List.forall_mem_cons.mp hcs
    obtain ⟨d, hd, hchar, hvalue⟩ := exists_digitChar hc
    have hstep : natText acc ++ [c] = natText (10 * acc + d) := by
      rw [natText, natText, ← Nat.toDigits_append_toDigits (by decide) hacc hd,
        Nat.toDigits_of_lt_base hd, hchar]
    rw [List.append_cons, hstep, ih (by omega) hcs, Nat.ofDigitChars_cons, hvalue]

/-- Digits are zeros and then the text of their value. -/
theorem exists_leading_zeros (hne : cs ≠ []) (hcs : ∀ c ∈ cs, c.isDigit = true) :
    ∃ zeros, cs = List.replicate zeros '0' ++ natText (Nat.ofDigitChars 10 cs 0) := by
  induction cs with
  | nil => exact absurd rfl hne
  | cons c cs ih =>
    obtain ⟨hc, hcs⟩ := List.forall_mem_cons.mp hcs
    obtain ⟨d, hd, hchar, hvalue⟩ := exists_digitChar hc
    rw [Nat.ofDigitChars_cons, hvalue, Nat.mul_zero, Nat.zero_add]
    rcases Nat.eq_zero_or_pos d with rfl | hpos
    · by_cases hrest : cs = []
      · exact ⟨0, by rw [hrest, hchar]; rfl⟩
      · obtain ⟨zeros, hzeros⟩ := ih hrest hcs
        refine ⟨zeros + 1, ?_⟩
        rw [List.replicate_succ, List.cons_append, ← hzeros, hchar]
        rfl
    · refine ⟨0, ?_⟩
      rw [List.replicate_zero, List.nil_append, ← natText_append hpos hcs, natText,
        Nat.toDigits_of_lt_base hd, hchar]
      rfl

theorem isDigit_of_mem_zeros_natText {zeros : Nat} :
    ∀ c ∈ List.replicate zeros '0' ++ natText n, c.isDigit = true := by
  refine List.forall_mem_append.mpr ⟨fun c hc => ?_, fun c => isDigit_of_mem_natText⟩
  rw [List.eq_of_mem_replicate hc]
  rfl

theorem digits?_eq_some_iff :
    digits? cs = some n ↔ ∃ zeros, cs = List.replicate zeros '0' ++ natText n := by
  constructor
  · intro h
    have hne : cs ≠ [] := fun hnil => by simp [digits?, hnil] at h
    have hfrom : digitsFrom? 0 cs = some n := by rwa [digits?, if_neg hne] at h
    have hcs := isDigit_of_digitsFrom? hfrom
    obtain rfl : Nat.ofDigitChars 10 cs 0 = n :=
      Option.some.inj ((digitsFrom?_eq hcs 0).symm.trans hfrom)
    exact exists_leading_zeros hne hcs
  · rintro ⟨zeros, rfl⟩
    have hne : List.replicate zeros '0' ++ natText n ≠ [] :=
      List.append_ne_nil_of_right_ne_nil _ Nat.toDigits_ne_nil
    rw [digits?_eq hne isDigit_of_mem_zeros_natText, ofDigitChars_zeros_append,
      ofDigitChars_natText]

/-! ## Reading -/

theorem standsFor_plus_iff : StandsFor ('+' :: cs) n ↔
    ∃ zeros, cs = List.replicate zeros '0' ++ natText n := by
  constructor
  · rintro ⟨sign, zeros, rfl | rfl, heq⟩
    · have hplus : '+'.isDigit = true :=
        isDigit_of_mem_zeros_natText '+' (heq ▸ List.mem_cons_self)
      exact absurd hplus (by decide)
    · exact ⟨zeros, (List.cons.inj heq).2⟩
  · rintro ⟨zeros, rfl⟩
    exact ⟨['+'], zeros, .inr rfl, rfl⟩

theorem standsFor_iff (hcs : ∀ rest, cs ≠ '+' :: rest) : StandsFor cs n ↔
    ∃ zeros, cs = List.replicate zeros '0' ++ natText n := by
  constructor
  · rintro ⟨sign, zeros, rfl | rfl, heq⟩
    · exact ⟨zeros, heq⟩
    · exact absurd heq (hcs _)
  · rintro ⟨zeros, rfl⟩
    exact ⟨[], zeros, .inl rfl, rfl⟩

/-- A natural number is read exactly from the texts that stand for it, if it is in the range. -/
theorem readBelow?_eq_some_iff {bound : Nat} :
    readBelow? bound cs = some n ↔ n < bound ∧ StandsFor cs n := by
  unfold readBelow?
  rw [Option.filter_eq_some_iff, decide_eq_true_eq, and_comm]
  refine and_congr_right fun _ => ?_
  split
  · rw [digits?_eq_some_iff, standsFor_plus_iff]
  · rename_i hplus
    rw [digits?_eq_some_iff, standsFor_iff hplus]

/-- A text stands for one number. -/
theorem StandsFor.unique {m : Nat} (hm : StandsFor cs m) (hn : StandsFor cs n) : m = n := by
  have hread : readBelow? (m + n + 1) cs = some m := readBelow?_eq_some_iff.mpr ⟨by omega, hm⟩
  exact Option.some.inj (hread.symm.trans (readBelow?_eq_some_iff.mpr ⟨by omega, hn⟩))

/-! ## Integers of 32 bits -/

theorem digits?_natText (n : Nat) : digits? (natText n) = some n := by
  have hne : natText n ≠ [] := Nat.toDigits_ne_nil
  rw [digits?_eq hne fun c hc => isDigit_of_mem_natText hc, ofDigitChars_natText]

/-- The text of an integer consists of digits, behind a sign if it is negative. -/
theorem mem_int32Text {i : Int32} (hc : c ∈ int32Text i) : c.isDigit = true ∨ c = '-' := by
  unfold int32Text at hc
  split at hc
  · rcases List.mem_cons.mp hc with hc | hc
    · exact .inr hc
    · exact .inl (isDigit_of_mem_natText hc)
  · exact .inl (isDigit_of_mem_natText hc)

theorem readInt32?_int32Text (i : Int32) : readInt32? (int32Text i) = some i := by
  have hlow : -2 ^ 31 ≤ i.toInt := i.le_toInt
  have hhigh : i.toInt < 2 ^ 31 := i.toInt_lt
  unfold int32Text
  by_cases hneg : i < 0
  · have hlt : i.toInt < 0 := Int32.lt_iff_toInt_lt.mp hneg
    have hle : i.toInt.natAbs ≤ Nat.pow 2 31 := by
      show i.toInt.natAbs ≤ 2 ^ 31
      omega
    have hvalue : -(i.toInt.natAbs : Int) = i.toInt := by omega
    rw [if_pos hneg, readInt32?, digits?_natText, Option.filter_some, if_pos (by simpa using hle)]
    show some (Int32.ofInt (-(i.toInt.natAbs : Int))) = some i
    rw [hvalue, Int32.ofInt_toInt]
  · have hge : 0 ≤ i.toInt := by
      have := mt Int32.lt_iff_toInt_lt.mpr hneg
      simpa using this
    have hlt : i.toInt.natAbs < Nat.pow 2 31 := by
      show i.toInt.natAbs < 2 ^ 31
      omega
    have hvalue : (i.toInt.natAbs : Int) = i.toInt := by omega
    have hdigit (c : Char) (rest : List Char) (h : natText i.toInt.natAbs = c :: rest) :
        c.isDigit = true := isDigit_of_mem_natText (h ▸ List.mem_cons_self)
    rw [if_neg hneg]
    unfold readInt32?
    -- no digit is a sign
    split
    · rename_i rest htext
      exact absurd (hdigit '-' rest htext) (by decide)
    · rename_i rest htext
      exact absurd (hdigit '+' rest htext) (by decide)
    · rw [digits?_natText, Option.filter_some, if_pos (by simpa using hlt)]
      show some (Int32.ofInt (i.toInt.natAbs : Int)) = some i
      rw [hvalue, Int32.ofInt_toInt]

end MaterialViewer.Number
