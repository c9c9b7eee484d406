/-!
# Ordered maps

A map as the list of its entries, in the order in which its keys came first. Putting a new value
under a known key keeps the key's position.
-/

namespace MaterialViewer.Ordered

variable {κ α : Type} [DecidableEq κ]

/-- The map with the value `v` under `k`: in place of the old value, or at the end. -/
def put (k : κ) (v : α) : List (κ × α) → List (κ × α)
  | [] => [(k, v)]
  | (key, value) :: rest => if key = k then (k, v) :: rest else (key, value) :: put k v rest

/-- The value under a key. -/
def get? (k : κ) : List (κ × α) → Option α
  | [] => none
  | (key, value) :: rest => if key = k then some value else get? k rest

/-- The map without a key. -/
def erase (k : κ) (entries : List (κ × α)) : List (κ × α) := entries.filter (·.1 ≠ k)

theorem get?_put_self (k : κ) (v : α) (entries : List (κ × α)) :
    get? k (put k v entries) = some v := by
  induction entries with
  | nil => simp [put, get?]
  | cons entry rest ih =>
    by_cases h : entry.1 = k
    · simp [put, get?, h]
    · simp [put, get?, h, ih]

theorem get?_put_of_ne {k k' : κ} (h : k' ≠ k) (v : α) (entries : List (κ × α)) :
    get? k' (put k v entries) = get? k' entries := by
  induction entries with
  | nil => simp [put, get?, h.symm]
  | cons entry rest ih =>
    by_cases hk : entry.1 = k
    · simp [put, get?, hk, h.symm]
    · simp [put, get?, hk, ih]

theorem length_le_put (k : κ) (v : α) (entries : List (κ × α)) :
    entries.length ≤ (put k v entries).length := by
  induction entries with
  | nil => exact Nat.zero_le _
  | cons entry rest ih =>
    rw [put]
    split
    · exact Nat.le_refl _
    · exact Nat.succ_le_succ ih

theorem get?_erase_of_ne {k k' : κ} (h : k' ≠ k) (entries : List (κ × α)) :
    get? k' (erase k entries) = get? k' entries := by
  induction entries with
  | nil => rfl
  | cons entry rest ih =>
    unfold erase at ih
    by_cases hk : entry.1 = k
    · rw [erase, List.filter_cons_of_neg (by simp [hk]), ih, get?, if_neg (hk ▸ h.symm)]
    · rw [erase, List.filter_cons_of_pos (by simp [hk]), get?, get?, ih]

theorem get?_erase_self (k : κ) (entries : List (κ × α)) : get? k (erase k entries) = none := by
  induction entries with
  | nil => rfl
  | cons entry rest ih =>
    unfold erase at ih
    by_cases hk : entry.1 = k
    · rw [erase, List.filter_cons_of_neg (by simp [hk]), ih]
    · rw [erase, List.filter_cons_of_pos (by simp [hk]), get?, if_neg hk, ih]

theorem get?_append (k : κ) (entries more : List (κ × α)) :
    get? k (entries ++ more) = (get? k entries).or (get? k more) := by
  induction entries with
  | nil => rfl
  | cons entry rest ih =>
    rw [List.cons_append, get?, get?, ih]
    by_cases hk : entry.1 = k
    · rw [if_pos hk, if_pos hk, Option.some_or]
    · rw [if_neg hk, if_neg hk]

/-- Of the values put under a key the last one stays. -/
theorem get?_foldl_put (k : κ) (more entries : List (κ × α)) :
    get? k (more.foldl (fun entries entry => put entry.1 entry.2 entries) entries) =
      (get? k more.reverse).or (get? k entries) := by
  induction more generalizing entries with
  | nil => rfl
  | cons entry rest ih =>
    rw [List.foldl_cons, ih, List.reverse_cons, get?_append, Option.or_assoc]
    congr 1
    by_cases hk : entry.1 = k
    · rw [← hk, get?_put_self, get?, if_pos rfl, Option.some_or]
    · rw [get?_put_of_ne (Ne.symm hk), get?, if_neg hk, get?, Option.none_or]

theorem mem_of_get? {k : κ} {v : α} {entries : List (κ × α)} (h : get? k entries = some v) :
    (k, v) ∈ entries := by
  induction entries with
  | nil => cases h
  | cons entry rest ih =>
    rw [get?] at h
    split at h
    · rename_i hk
      obtain rfl := Option.some.inj h
      exact hk ▸ List.mem_cons_self
    · exact List.mem_cons_of_mem _ (ih h)

/-- A key without a value is none of the keys. -/
theorem get?_eq_none_iff {k : κ} {entries : List (κ × α)} :
    get? k entries = none ↔ k ∉ entries.map Prod.fst := by
  induction entries with
  | nil => simp [get?]
  | cons entry rest ih =>
    by_cases hk : entry.1 = k
    · simp [get?, hk]
    · simp [get?, hk, ih, Ne.symm hk]

/-- A value under a new key comes last. -/
theorem put_of_get?_eq_none {k : κ} {entries : List (κ × α)} (h : get? k entries = none) (v : α) :
    put k v entries = entries ++ [(k, v)] := by
  induction entries with
  | nil => rfl
  | cons entry rest ih =>
    have hk : entry.1 ≠ k := fun hk => by simp [get?, hk] at h
    rw [get?, if_neg hk] at h
    rw [put, if_neg hk, ih h, List.cons_append]

theorem erase_of_get?_eq_none {k : κ} {entries : List (κ × α)} (h : get? k entries = none) :
    erase k entries = entries := by
  refine List.filter_eq_self.2 fun entry hentry => ?_
  have hne : entry.1 ≠ k := fun hk =>
    get?_eq_none_iff.1 h (List.mem_map.2 ⟨entry, hentry, hk⟩)
  simpa using hne

/-- Of distinct keys just the entry that is found is erased. -/
theorem perm_cons_erase {k : κ} {v : α} {entries : List (κ × α)} (h : get? k entries = some v)
    (hkeys : (entries.map Prod.fst).Nodup) : entries.Perm ((k, v) :: erase k entries) := by
  induction entries with
  | nil => cases h
  | cons entry rest ih =>
    obtain ⟨key, value⟩ := entry
    obtain ⟨hnew, hrest⟩ := List.nodup_cons.1 hkeys
    by_cases hk : key = k
    · obtain rfl : value = v := by simpa [get?, hk] using h
      subst hk
      rw [erase, List.filter_cons_of_neg (by simp), ← erase,
        erase_of_get?_eq_none (get?_eq_none_iff.2 hnew)]
    · rw [get?, if_neg hk] at h
      rw [erase, List.filter_cons_of_pos (by simpa using hk), ← erase]
      exact ((ih h hrest).cons _).trans (.swap _ _ _)

end MaterialViewer.Ordered
