import MaterialViewer.Device.ProgramCache
import MaterialViewer.Proofs.Device.Driven

/-!
# Proofs: the program cache

What the cache holds after each of its operations, and what becomes of the programs on a headless
device: if the programs of the cache are live, they stay so when a program is acquired, and when the
programs that nobody holds are released.
-/

namespace MaterialViewer

namespace ProgramCache

variable {c : ProgramCache} {program q : CompiledProgram} {source : ProgramSource}

theorem mem_programs :
    q ∈ c.programs ↔ ∃ entry ∈ c.buckets, q ∈ entry.2 := List.mem_flatMap

theorem mem_flatMap_addTo (key : UInt64) (buckets : List (UInt64 × List CompiledProgram)) :
    q ∈ (addTo key program buckets).flatMap (·.2) ↔ q = program ∨ q ∈ buckets.flatMap (·.2) := by
  induction buckets with
  | nil => simp [addTo]
  | cons entry rest ih =>
    unfold addTo
    by_cases hkey : entry.1 = key
    · rw [if_pos hkey]
      simp only [List.flatMap_cons, List.mem_append, List.mem_singleton]
      rw [or_comm (b := q = program), or_assoc]
    · rw [if_neg hkey]
      simp only [List.flatMap_cons, List.mem_append, ih]
      exact or_left_comm

theorem mem_insert : q ∈ (c.insert program).programs ↔ q = program ∨ q ∈ c.programs :=
  mem_flatMap_addTo _ _

theorem mem_filter {p : CompiledProgram → Bool} :
    q ∈ (c.filter p).programs ↔ q ∈ c.programs ∧ p q = true := by
  rw [mem_programs, mem_programs]
  constructor
  · rintro ⟨entry, hentry, hq⟩
    obtain ⟨⟨key, bucket⟩, hbucket, rfl⟩ := List.mem_map.1 (List.mem_filter.1 hentry).1
    obtain ⟨hq, hp⟩ := List.mem_filter.1 hq
    exact ⟨⟨_, hbucket, hq⟩, hp⟩
  · rintro ⟨⟨⟨key, bucket⟩, hbucket, hq⟩, hp⟩
    have hmem : q ∈ bucket.filter p := List.mem_filter.2 ⟨hq, hp⟩
    refine ⟨(key, bucket.filter p), List.mem_filter.2 ⟨List.mem_map.2 ⟨_, hbucket, rfl⟩, ?_⟩, hmem⟩
    have hne : bucket.filter p ≠ [] := List.ne_nil_of_mem hmem
    simp [hne]

theorem mem_of_find? (h : c.find? source = some q) : q ∈ c.programs ∧ q.source = source := by
  have hmem : q ∈ c.bucket (c.sourceHash source) := List.mem_of_find?_eq_some h
  have hsource : q.source = source := by simpa using List.find?_some h
  unfold bucket at hmem
  cases hlookup : c.buckets.lookup (c.sourceHash source) with
  | none => simp [hlookup] at hmem
  | some bucket =>
    rw [hlookup] at hmem
    obtain ⟨before, after, hsplit, -⟩ := List.lookup_eq_some_iff.1 hlookup
    refine ⟨mem_programs.2 ⟨(c.sourceHash source, bucket), ?_, hmem⟩, hsource⟩
    rw [hsplit]
    simp

section Acquire

variable {δ : Type} [Device δ] {c' : ProgramCache} {d d' : δ} {name : String}

/-- A program is acquired from the cache or compiled; only in the second case cache and device
change. -/
theorem acquire_ok (h : c.acquire name source d = (.ok program, c', d')) :
    program.source = source ∧
      ((program ∈ c.programs ∧ c' = c ∧ d' = d) ∨
        (c.find? source = none ∧ Device.compile d name source = (.ok program.id, d') ∧
          c' = c.insert program)) := by
  unfold acquire at h
  split at h
  · rename_i found hfound
    obtain ⟨hp, rfl, rfl⟩ := by simpa only [Prod.mk.injEq, Except.ok.injEq] using h
    subst hp
    obtain ⟨hmem, hsource⟩ := mem_of_find? hfound
    exact ⟨hsource, .inl ⟨hmem, rfl, rfl⟩⟩
  · rename_i hnone
    split at h
    · cases (Prod.mk.inj h).1
    · rename_i id device hcompile
      obtain ⟨hp, rfl, rfl⟩ := by simpa only [Prod.mk.injEq, Except.ok.injEq] using h
      subst hp
      exact ⟨rfl, .inr ⟨hnone, hcompile, rfl⟩⟩

/-- A program cannot be acquired only if the device refuses to compile it. -/
theorem acquire_error {e : CompileError} (h : c.acquire name source d = (.error e, c', d')) :
    c' = c ∧ e.name = name ∧ e.source = source ∧
      Device.compile d name source = (.error e.reason, d') := by
  unfold acquire at h
  split at h
  · cases (Prod.mk.inj h).1
  · split at h
    · rename_i reason device hcompile
      obtain ⟨he, rfl, rfl⟩ := by simpa only [Prod.mk.injEq, Except.error.injEq] using h
      subst he
      exact ⟨rfl, rfl, rfl, hcompile⟩
    · cases (Prod.mk.inj h).1

end Acquire

/-! ## On a headless device -/

/-- All programs of the cache are live. -/
def AllLive (c : ProgramCache) (d : Headless) : Prop := ∀ program ∈ c.programs, d.IsLive program.id

variable {c' : ProgramCache} {d d' : Headless} {name : String}

theorem AllLive.steady (h : c.AllLive d) (hd : Headless.Steady d d') : c.AllLive d' :=
  fun program hp => hd.live _ (h program hp)

theorem AllLive.acquire (hlive : c.AllLive d)
    (h : c.acquire name source d = (.ok program, c', d')) :
    c'.AllLive d' ∧ Headless.Steady d d' ∧ d'.IsLive program.id := by
  obtain ⟨-, ⟨hmem, rfl, rfl⟩ | ⟨-, hcompile, rfl⟩⟩ := acquire_ok h
  · exact ⟨hlive, .refl _, hlive _ hmem⟩
  · obtain ⟨hsteady, hnew⟩ := Headless.compile_ok hcompile
    refine ⟨fun q hq => ?_, hsteady, hnew⟩
    rcases mem_insert.1 hq with rfl | hq
    · exact hnew
    · exact hsteady.live _ (hlive q hq)

/-- Releasing programs leaves those that are not among them, and the current program if it is not
among them. -/
theorem release_foldl (released : List CompiledProgram) (d : Headless) :
    (∀ p, d.IsLive p → (∀ q ∈ released, p ≠ q.id) →
      (released.foldl (fun d q => Device.perform d (.releaseProgram q.id)) d).IsLive p) ∧
    (∀ p, d.current? = some p → (∀ q ∈ released, p ≠ q.id) →
      (released.foldl (fun d q => Device.perform d (.releaseProgram q.id)) d).current? = some p) := by
  induction released generalizing d with
  | nil => exact ⟨fun _ hp _ => hp, fun _ hp _ => hp⟩
  | cons q rest ih =>
    obtain ⟨hlive, hcurrent⟩ := ih (Device.perform d (.releaseProgram q.id))
    refine ⟨fun p hp hne => ?_, fun p hp hne => ?_⟩
    · refine hlive p (hp.release (hne q List.mem_cons_self)) fun q' hq' => ?_
      exact hne q' (List.mem_cons_of_mem _ hq')
    · refine hcurrent p (Headless.current_release hp (hne q List.mem_cons_self)) fun q' hq' => ?_
      exact hne q' (List.mem_cons_of_mem _ hq')

theorem mem_unused {held : List ProgramId} :
    q ∈ c.unused held ↔ q ∈ c.programs ∧ q.id ∉ held := by
  simp [unused]

/-- After a purge the programs that are left are live; a program that is held stays live, and
current if it was. -/
theorem AllLive.purge (hlive : c.AllLive d) (held : List ProgramId) :
    (c.purge held d).1.AllLive (c.purge held d).2 ∧
      (∀ p ∈ held, d.IsLive p → (c.purge held d).2.IsLive p) ∧
      ∀ p ∈ held, d.current? = some p → (c.purge held d).2.current? = some p := by
  obtain ⟨hstay, hcurrent⟩ := release_foldl (c.unused held) d
  have hne : ∀ p ∈ held, ∀ q ∈ c.unused held, p ≠ q.id := by
    rintro p hp q hq rfl
    exact (mem_unused.1 hq).2 hp
  refine ⟨fun q hq => ?_, fun p hp h => hstay p h (hne p hp),
    fun p hp h => hcurrent p h (hne p hp)⟩
  obtain ⟨hmem, hheld⟩ := mem_filter.1 hq
  exact hstay _ (hlive q hmem) (hne _ (List.contains_iff_mem.1 hheld))

end ProgramCache

end MaterialViewer
