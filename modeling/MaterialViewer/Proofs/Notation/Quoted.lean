import MaterialViewer.Notation.Quoted
import MaterialViewer.Proofs.Text.Split

/-!
# Proofs: quoted texts

Between quotation marks every text reads back as it was: each character is either itself or an
escape that stands for it.
-/

namespace MaterialViewer.Quoted

variable {n : Nat} {c : Char} {cs rest : List Char}

/-! ## Hexadecimal numbers -/

theorem hexDigit?_digitChar : ∀ k < 16, hexDigit? k.digitChar = some k := by decide

theorem digitChar_ne_brace : ∀ k < 16, Nat.digitChar k ≠ '\x7d' := by decide

theorem hex?_concat (digits : List Char) (c : Char) :
    hex? (digits ++ [c]) = (hex? digits).bind fun n => (hexDigit? c).map (16 * n + ·) := by
  unfold hex?
  rw [List.foldlM_append]
  simp only [List.foldlM_cons, List.foldlM_nil, bind_pure]
  rfl

/-- Hexadecimal digits read back, and none of them is a brace. -/
theorem hex?_toDigits (n : Nat) :
    hex? (Nat.toDigits 16 n) = some n ∧ ∀ c ∈ Nat.toDigits 16 n, c ≠ '\x7d' := by
  induction n using Nat.strongRecOn with
  | ind n ih =>
    rw [Nat.toDigits_eq_if (by decide)]
    split
    next hlt =>
      refine ⟨?_, fun c hc => ?_⟩
      · have hdigit := hex?_concat [] n.digitChar
        rw [hexDigit?_digitChar n hlt] at hdigit
        exact hdigit.trans (by simp [hex?])
      · rw [List.mem_singleton.mp hc]
        exact digitChar_ne_brace n hlt
    next hge =>
      obtain ⟨hread, hbrace⟩ := ih (n / 16) (by omega)
      refine ⟨?_, fun c hc => ?_⟩
      · rw [hex?_concat, hread, hexDigit?_digitChar _ (Nat.mod_lt _ (by decide))]
        simp only [Option.bind_some, Option.map_some, Nat.div_add_mod]
      · rcases List.mem_append.mp hc with hc | hc
        · exact hbrace c hc
        · rw [List.mem_singleton.mp hc]
          exact digitChar_ne_brace _ (Nat.mod_lt _ (by decide))

/-! ## Characters -/

theorem charOf?_toNat (c : Char) : charOf? c.toNat = some c := by
  have hvalid : c.toNat.isValidChar := c.valid
  rw [charOf?, if_pos hvalid, Char.ofNat_toNat]

theorem readEscape?_hidden (c : Char) (rest : List Char) :
    readEscape? ('u' :: '\x7b' :: (Nat.toDigits 16 c.toNat ++ '\x7d' :: rest)) =
      some (c, rest) := by
  obtain ⟨hread, hbrace⟩ := hex?_toDigits c.toNat
  have hne : Nat.toDigits 16 c.toNat ≠ [] := Nat.toDigits_ne_nil
  have hlength : (Nat.toDigits 16 c.toNat).length ≤ 6 := by
    refine (Nat.length_toDigits_le_iff (by decide) (by decide)).mpr ?_
    have hvalid : c.toNat.isValidChar := c.valid
    unfold Nat.isValidChar at hvalid
    omega
  have hspan : (Nat.toDigits 16 c.toNat ++ '\x7d' :: rest).span (· ≠ '\x7d') =
      (Nat.toDigits 16 c.toNat, '\x7d' :: rest) := by
    refine Text.span_append (fun d hd => decide_eq_true (hbrace d hd)) fun d hd => ?_
    rw [← Option.some.inj hd]
    rfl
  rw [readEscape?, hspan]
  dsimp only
  rw [guard, if_pos ⟨hne, hlength⟩, hread]
  simp [charOf?_toNat]

/-- A character is written as itself or as an escape that stands for it. -/
theorem encodeChar_cases (c : Char) :
    (∃ escape, encodeChar c = '\\' :: escape ∧
      ∀ rest, readEscape? (escape ++ rest) = some (c, rest)) ∨
    (encodeChar c = [c] ∧ c ≠ '"' ∧ c ≠ '\\') := by
  unfold encodeChar
  split
  case h_8 hquote _ hslash =>
    split
    · refine .inl ⟨_, rfl, fun rest => ?_⟩
      have hhidden := readEscape?_hidden c rest
      simpa using hhidden
    · exact .inr ⟨rfl, hquote, hslash⟩
  all_goals exact .inl ⟨_, rfl, fun rest => rfl⟩

/-! ## Texts -/

/-- A text is read up to the mark behind it, as each step reads one character. -/
theorem decodeFrom?_encode (cs rest : List Char) {fuel : Nat} (hfuel : cs.length < fuel) :
    decodeFrom? fuel (cs.flatMap encodeChar ++ '"' :: rest) = some (cs, rest) := by
  induction cs generalizing fuel with
  | nil =>
    obtain ⟨fuel, rfl⟩ := Nat.exists_eq_add_one_of_ne_zero (Nat.ne_of_gt hfuel)
    rfl
  | cons c cs ih =>
    obtain ⟨fuel, rfl⟩ := Nat.exists_eq_add_one_of_ne_zero (Nat.ne_zero_of_lt hfuel)
    have hrest := ih (Nat.lt_of_succ_lt_succ hfuel)
    rw [List.flatMap_cons, List.append_assoc]
    rcases encodeChar_cases c with ⟨escape, hescape, hread⟩ | ⟨hself, hquote, hslash⟩
    · rw [hescape, List.cons_append, decodeFrom?, hread]
      simp [hrest]
    · rw [hself, List.singleton_append, decodeFrom?.eq_5 _ _ _ hquote hslash, hrest]
      rfl

theorem length_le_encode (cs : List Char) : cs.length ≤ (cs.flatMap encodeChar).length := by
  induction cs with
  | nil => exact Nat.le_refl _
  | cons c cs ih =>
    have hpos : 0 < (encodeChar c).length := by
      rcases encodeChar_cases c with ⟨escape, hescape, -⟩ | ⟨hself, -⟩
      · rw [hescape]
        exact Nat.succ_pos _
      · rw [hself]
        exact Nat.one_pos
    rw [List.flatMap_cons, List.length_append, List.length_cons]
    omega

/-- A quoted text reads back. -/
theorem decode?_encode (s : String) (rest : List Char) :
    decode? (s.toList.flatMap encodeChar ++ '"' :: rest) = some (s, rest) := by
  have hlength := length_le_encode s.toList
  rw [decode?, decodeFrom?_encode _ _ (by rw [List.length_append]; omega), Option.map_some]
  simp only [String.ofList_toList]

end MaterialViewer.Quoted
