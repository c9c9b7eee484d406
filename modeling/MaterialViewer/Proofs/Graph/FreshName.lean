import Mathlib.Data.Finset.Card
import Mathlib.Data.Nat.Find
import MaterialViewer.Graph.FreshName

/-!
# Proofs: fresh names

A fresh name is an identifier, and the first candidate for its base that is not used. The candidates
for a base are all different, so one is free among any that are more than the used names. Hence the
search never meets its bound: the loop that tries one candidate after the other without a bound
ends, and finds the same name.
-/

namespace MaterialViewer.FreshName

theorem natText_injective {m n : Nat} (h : Number.natText m = Number.natText n) : m = n := by
  have hm : Nat.ofDigitChars 10 (Number.natText m) 0 = m := Nat.ofDigitChars_ten_toDigits
  have hn : Nat.ofDigitChars 10 (Number.natText n) 0 = n := Nat.ofDigitChars_ten_toDigits
  rw [← hm, h, hn]

theorem toList_candidate (base : String) (number : Nat) :
    (candidate base number).toList =
      base.toList ++ if number = 0 then [] else Number.natText number := by
  unfold candidate
  split
  · rw [List.append_nil]
  · rw [String.toList_append, String.toList_ofList]

theorem candidate_injective (base : String) : Function.Injective (candidate base) := by
  intro m n h
  have htext := congrArg String.toList h
  rw [toList_candidate, toList_candidate, List.append_cancel_left_eq] at htext
  by_cases hm : m = 0
  · by_cases hn : n = 0
    · rw [hm, hn]
    · rw [if_pos hm, if_neg hn] at htext
      exact absurd htext.symm Nat.toDigits_ne_nil
  · by_cases hn : n = 0
    · rw [if_neg hm, if_pos hn] at htext
      exact absurd htext Nat.toDigits_ne_nil
    · rw [if_neg hm, if_neg hn] at htext
      exact natText_injective htext

/-! ## The first free candidate -/

variable {used : Finset String} {base : String} {number : Nat}

/-- The candidate of a number is free, and no earlier one is. -/
structure IsFirstFree (used : Finset String) (base : String) (number : Nat) : Prop where
  free : candidate base number ∉ used
  taken : ∀ earlier < number, candidate base earlier ∈ used

theorem exists_candidate_not_mem (used : Finset String) (base : String) :
    ∃ number ≤ used.card, candidate base number ∉ used := by
  let candidates := (Finset.range (used.card + 1)).image (candidate base)
  have hcard : used.card < candidates.card := by
    rw [Finset.card_image_of_injective _ (candidate_injective base), Finset.card_range]
    exact Nat.lt_succ_self used.card
  obtain ⟨name, hname, hfree⟩ := Finset.exists_mem_notMem_of_card_lt_card hcard
  obtain ⟨number, hnumber, rfl⟩ := Finset.mem_image.mp hname
  exact ⟨number, Nat.lt_succ_iff.mp (Finset.mem_range.mp hnumber), hfree⟩

theorem exists_isFirstFree (used : Finset String) (base : String) :
    ∃ number ≤ used.card, IsFirstFree used base number := by
  obtain ⟨number, hle, hfree⟩ := exists_candidate_not_mem used base
  have hexists : ∃ number, candidate base number ∉ used := ⟨number, hfree⟩
  refine ⟨Nat.find hexists, (Nat.find_min' hexists hfree).trans hle, Nat.find_spec hexists, ?_⟩
  exact fun earlier hlt => not_not.mp (Nat.find_min hexists hlt)

/-- A search that starts no later than at the first free candidate and can come so far finds it. -/
theorem IsFirstFree.searchFrom_eq {used : List String} {start steps : Nat}
    (h : IsFirstFree used.toFinset base number) (hstart : start ≤ number)
    (hsteps : number ≤ start + steps) :
    searchFrom used base steps start = candidate base number := by
  induction steps generalizing start with
  | zero => rw [searchFrom, Nat.le_antisymm hstart hsteps]
  | succ steps ih =>
    rw [searchFrom]
    rcases hstart.eq_or_lt with rfl | hlt
    · rw [if_neg (by simpa using h.free)]
    · rw [if_pos (by simpa using h.taken start hlt)]
      exact ih hlt (by omega)

/-- A fresh name is the first free candidate, and its number is at most the number of used names. -/
theorem fresh_eq_candidate (used : List String) (base : String) :
    ∃ number ≤ used.toFinset.card, IsFirstFree used.toFinset (Glsl.identifier base) number ∧
      fresh used base = candidate (Glsl.identifier base) number := by
  obtain ⟨number, hle, hfirst⟩ := exists_isFirstFree used.toFinset (Glsl.identifier base)
  have hsteps : number ≤ 0 + used.length := by
    rw [Nat.zero_add]
    exact hle.trans used.toFinset_card_le
  exact ⟨number, hle, hfirst, hfirst.searchFrom_eq (Nat.zero_le number) hsteps⟩

theorem fresh_not_mem (used : List String) (base : String) : fresh used base ∉ used := by
  obtain ⟨number, -, hfirst, hfresh⟩ := fresh_eq_candidate used base
  rw [hfresh]
  exact fun hmem => hfirst.free (List.mem_toFinset.mpr hmem)

/-! ## The search as a loop -/

/-- What a search keeps from round to round. -/
structure Search where
  /-- The name at hand. -/
  name : String
  /-- The number that comes next. -/
  counter : Nat

namespace Search

/-- A search begins with the base. -/
def start (base : String) : Search := ⟨base, 1⟩

/-- One round: the name at hand becomes the base with the counter at its end. -/
def advance (base : String) (s : Search) : Search :=
  ⟨base ++ String.ofList (Number.natText s.counter), s.counter + 1⟩

/-- A search that is in one state ends in another one. It goes on while the name at hand is used,
and nothing else ends it. -/
inductive Ends (used : Finset String) (base : String) : Search → Search → Prop
  | free {s : Search} (hfree : s.name ∉ used) : Ends used base s s
  | again {s s' : Search} (hused : s.name ∈ used) (hrest : Ends used base (s.advance base) s') :
      Ends used base s s'

/-- The state after a number of rounds. -/
def after (base : String) (rounds : Nat) : Search := ⟨candidate base rounds, rounds + 1⟩

theorem after_zero (base : String) : after base 0 = start base := rfl

theorem advance_after (base : String) (rounds : Nat) :
    (after base rounds).advance base = after base (rounds + 1) := by
  simp [advance, after, candidate]

/-- A search ends in one state at most, as nothing is chosen in a round. -/
theorem Ends.unique {s s₁ s₂ : Search} (h₁ : Ends used base s s₁) (h₂ : Ends used base s s₂) :
    s₁ = s₂ := by
  induction h₁ with
  | free hfree =>
    cases h₂ with
    | free _ => rfl
    | again hused _ => exact absurd hused hfree
  | again hused _ ih =>
    cases h₂ with
    | free hfree => exact absurd hused hfree
    | again _ hrest => exact ih hrest

end Search

/-- A search that has not passed the first free candidate ends there. -/
theorem IsFirstFree.ends {rounds : Nat} (h : IsFirstFree used base number) (hle : rounds ≤ number) :
    Search.Ends used base (.after base rounds) (.after base number) := by
  induction hle using Nat.decreasingInduction with
  | self => exact .free h.free
  | of_succ rounds hlt ih =>
    refine .again (h.taken rounds hlt) ?_
    rwa [Search.advance_after]

/-- Whatever names are used, the search for every name ends, and in one state only: the fresh name
is at hand, and there were no more rounds than there are used names. -/
theorem ends_iff (used : List String) (base : String) :
    ∃ counter ≤ used.toFinset.card + 1, ∀ s,
      Search.Ends used.toFinset (Glsl.identifier base) (.start (Glsl.identifier base)) s ↔
        s = ⟨fresh used base, counter⟩ := by
  obtain ⟨number, hle, hfirst, hfresh⟩ := fresh_eq_candidate used base
  have hends := hfirst.ends (Nat.zero_le number)
  rw [Search.after_zero, Search.after, ← hfresh] at hends
  refine ⟨number + 1, Nat.succ_le_succ hle, fun s => ⟨fun h => h.unique hends, ?_⟩⟩
  rintro rfl
  exact hends

/-! ## Identifiers -/

theorem isIdentifierChar_of_mem_identifier {name : String} {c : Char}
    (hc : c ∈ (Glsl.identifier name).toList) : Glsl.isIdentifierChar c = true := by
  rw [Glsl.identifier, String.toList_ofList, Glsl.identifierChars] at hc
  have hplain : ∀ c ∈ name.toList.map fun c => if c.isAlphanum then c else '_',
      Glsl.isIdentifierChar c = true := by
    intro c hc
    obtain ⟨d, -, rfl⟩ := List.mem_map.1 hc
    by_cases hd : d.isAlphanum = true
    · rw [if_pos hd, Glsl.isIdentifierChar, hd, Bool.true_or]
    · rw [if_neg hd]
      rfl
  revert hplain hc
  generalize (name.toList.map fun c => if c.isAlphanum then c else '_') = plain
  intro hc hplain
  have hled : ∀ c, c ∈ '_' :: '_' :: plain → Glsl.isIdentifierChar c = true := by
    rintro c (_ | ⟨_, _ | ⟨_, hc⟩⟩)
    · rfl
    · rfl
    · exact hplain c hc
  -- the identifier has at most two underscores more in front
  refine hled c ?_
  cases plain with
  | nil => grind
  | cons d rest => grind

theorem isIdentifierChar_of_mem_fresh {used : List String} {base : String} {c : Char}
    (hc : c ∈ (fresh used base).toList) : Glsl.isIdentifierChar c = true := by
  obtain ⟨number, -, -, hfresh⟩ := fresh_eq_candidate used base
  rw [hfresh, toList_candidate] at hc
  rcases List.mem_append.1 hc with hc | hc
  · exact isIdentifierChar_of_mem_identifier hc
  · split at hc
    · cases hc
    · have hdigit : c.isDigit = true := Nat.isDigit_of_mem_toDigits (by decide) (by decide) hc
      rw [Glsl.isIdentifierChar, Char.isAlphanum, hdigit, Bool.or_true, Bool.true_or]

end MaterialViewer.FreshName
