import Mathlib.Data.List.Forall2

/-!
# Proofs: lists entry by entry

A list that was made from another one entry by entry corresponds to it entry by entry, and what
holds of all pairs holds along both lists. A list that was sorted by a condition starts with the
first entry that the condition puts first.
-/

namespace MaterialViewer

variable {α β : Type} {r : α → β → Prop} {f : α → Option β} {xs : List α} {ys : List β}

/-- Entries of two lists that correspond to each other have partners on the other side. -/
theorem exists_of_forall₂ (h : List.Forall₂ r xs ys) :
    (∀ x ∈ xs, ∃ y ∈ ys, r x y) ∧ ∀ y ∈ ys, ∃ x ∈ xs, r x y := by
  induction h with
  | nil => exact ⟨nofun, nofun⟩
  | @cons x y _ _ hxy _ ih =>
    simp only [List.forall_mem_cons, List.exists_mem_cons_iff]
    exact ⟨⟨.inl hxy, fun x hx => .inr (ih.1 x hx)⟩, .inl hxy, fun y hy => .inr (ih.2 y hy)⟩

/-- What holds of whatever stands on the right of a relation. -/
theorem forall_mem_of_forall₂ {p : β → Prop} (h : List.Forall₂ r xs ys)
    (hp : ∀ x y, r x y → p y) : ∀ y ∈ ys, p y := by
  intro y hy
  obtain ⟨x, -, hxy⟩ := (exists_of_forall₂ h).2 y hy
  exact hp x y hxy

theorem mapM_eq_some_iff :
    xs.mapM f = some ys ↔ List.Forall₂ (fun x y => f x = some y) xs ys := by
  induction xs generalizing ys with
  | nil =>
    rw [List.mapM_nil, List.forall₂_nil_left_iff]
    exact ⟨fun h => (Option.some.inj h).symm, fun h => congrArg some h.symm⟩
  | cons x rest ih =>
    rw [List.mapM_cons, List.forall₂_cons_left_iff]
    constructor
    · intro h
      obtain ⟨y, hy, h⟩ := Option.bind_eq_some_iff.mp h
      obtain ⟨tail, htail, h⟩ := Option.bind_eq_some_iff.mp h
      exact ⟨y, tail, hy, ih.mp htail, (Option.some.inj h).symm⟩
    · rintro ⟨y, tail, hy, htail, rfl⟩
      rw [hy, ih.mpr htail]
      rfl

theorem exists_of_mapM (h : xs.mapM f = some ys) : ∀ x ∈ xs, ∃ y, f x = some y := by
  intro x hx
  obtain ⟨y, -, hy⟩ := (exists_of_forall₂ (mapM_eq_some_iff.mp h)).1 x hx
  exact ⟨y, hy⟩

/-- A partial function that is defined on all entries of a list makes a list from it. -/
theorem exists_mapM_eq_some (h : ∀ x ∈ xs, ∃ y, f x = some y) : ∃ ys, xs.mapM f = some ys := by
  induction xs with
  | nil => exact ⟨[], rfl⟩
  | cons x rest ih =>
    obtain ⟨⟨y, hy⟩, hrest⟩ := List.forall_mem_cons.mp h
    obtain ⟨tail, htail⟩ := ih hrest
    exact ⟨y :: tail, mapM_eq_some_iff.mpr (.cons hy (mapM_eq_some_iff.mp htail))⟩

/-- Sorted by a condition, a list starts with the first of its entries that do not meet it, and if
all meet it with the entry with which it started. -/
theorem head?_mergeSort (later : α → Bool) (xs : List α) :
    (xs.mergeSort fun a b => later a ≤ later b).head? =
      (xs.find? fun x => !later x).or xs.head? := by
  have htrans : ∀ a b c : α, decide (later a ≤ later b) = true → decide (later b ≤ later c) = true →
      decide (later a ≤ later c) = true := by
    intro a b c hab hbc
    rw [decide_eq_true_iff] at hab hbc ⊢
    exact fun ha => hbc (hab ha)
  have htotal : ∀ a b : α, (decide (later a ≤ later b) || decide (later b ≤ later a)) = true := by
    intro a b
    cases later a <;> cases later b <;> rfl
  induction xs with
  | nil => simp
  | cons x rest ih =>
    obtain ⟨front, back, hall, hrest, hfront⟩ := List.mergeSort_cons htrans htotal x rest
    have hsorted := List.pairwise_mergeSort htrans htotal (x :: rest)
    rw [hall] at hsorted ⊢
    rw [hrest] at ih
    cases hx : later x with
    | false =>
      -- nothing is sorted before an entry that does not meet the condition
      have hnil : front = [] := by
        refine List.eq_nil_iff_forall_not_mem.mpr fun y hy => ?_
        have hlt := hfront y hy
        rw [hx] at hlt
        simp at hlt
      subst hnil
      simp [hx]
    | true =>
      rw [List.find?_cons_of_neg (by simp [hx]), List.head?_cons]
      cases front with
      | nil =>
        have hnone : rest.find? (fun y => !later y) = none := by
          refine List.find?_eq_none.mpr fun y hy => ?_
          have hy : y ∈ back := by
            rw [← List.nil_append back, ← hrest]
            exact List.mem_mergeSort.mpr hy
          have hle := (List.pairwise_cons.mp hsorted).1 y hy
          rw [decide_eq_true_iff] at hle
          simp [hle hx]
        rw [hnone, Option.none_or, List.nil_append, List.head?_cons]
      | cons y front =>
        rw [List.cons_append, List.head?_cons] at ih ⊢
        have hy : later y = false := by
          refine Bool.eq_false_iff.mpr fun hy => ?_
          have hlt := hfront y List.mem_cons_self
          rw [hx, hy] at hlt
          simp at hlt
        have hmem : y ∈ rest := by
          have hy : y ∈ y :: front ++ back := List.mem_cons_self
          rw [← hrest] at hy
          exact List.mem_mergeSort.mp hy
        obtain ⟨z, hz⟩ : ∃ z, rest.find? (fun z => !later z) = some z := by
          refine Option.isSome_iff_exists.mp (List.find?_isSome.mpr ⟨y, hmem, ?_⟩)
          rw [hy, Bool.not_false]
        rw [ih, hz, Option.some_or, Option.some_or]
end MaterialViewer
