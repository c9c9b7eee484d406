import Mathlib.Data.List.Nodup
import Mathlib.Logic.Function.Basic
import MaterialViewer.Device.Headless
import MaterialViewer.Proofs.Device.ProgramCache
import MaterialViewer.Proofs.Device.Traced

/-!
# Proofs: the program cache as an exact map

However sources are hashed, the cache behaves as a map from pairs of sources to programs. The map is
`ProgramCache.table`; `TableStep` says what a call answers, what it uses the device for and which
map it leaves. A session is the cache with a device of any kind and with the programs that callers
hold; whatever is called, each call is a step of the map.

What carries it is that programs are filed under the hash of their sources and that their sources
differ. Distinct numbers of programs are only needed where programs are held, since whether one is
held is told from its number.
-/

namespace MaterialViewer

namespace ProgramCache

variable {δ : Type} [Device δ] {c : ProgramCache} {p q : CompiledProgram} {source : ProgramSource}

/-- The program with a pair of sources, whatever its hash. -/
def table (c : ProgramCache) (source : ProgramSource) : Option CompiledProgram :=
  c.programs.find? (·.source = source)

/-- There is one bucket for a hash, with programs whose sources have the hash, and no two programs
have the same sources. -/
structure Filed (c : ProgramCache) : Prop where
  buckets : (c.buckets.map Prod.fst).Nodup
  hashes : ∀ entry ∈ c.buckets, ∀ p ∈ entry.2, c.sourceHash p.source = entry.1
  sources : (c.programs.map (·.source)).Nodup

theorem Filed.eq_of_source (h : c.Filed) (hp : p ∈ c.programs) (hq : q ∈ c.programs)
    (hsource : p.source = q.source) : p = q :=
  List.inj_on_of_nodup_map h.sources hp hq hsource

theorem Filed.table_eq_some (h : c.Filed) :
    c.table source = some p ↔ p ∈ c.programs ∧ p.source = source := by
  constructor
  · intro hp
    exact ⟨List.mem_of_find?_eq_some hp, by simpa using List.find?_some hp⟩
  · rintro ⟨hp, rfl⟩
    cases hfound : c.table p.source with
    | none => exact absurd (List.find?_eq_none.1 hfound p hp) (by simp)
    | some q =>
      have hq : q.source = p.source := by simpa using List.find?_some hfound
      rw [h.eq_of_source (List.mem_of_find?_eq_some hfound) hp hq]

theorem lookup_of_mem {key : UInt64} {bucket : List CompiledProgram}
    {buckets : List (UInt64 × List CompiledProgram)} (hkeys : (buckets.map Prod.fst).Nodup)
    (h : (key, bucket) ∈ buckets) : buckets.lookup key = some bucket := by
  induction buckets with
  | nil => cases h
  | cons entry rest ih =>
    obtain ⟨hnew, hrest⟩ := List.nodup_cons.1 hkeys
    rcases List.mem_cons.1 h with rfl | h
    · simp
    · have hne : key ≠ entry.1 := fun heq => hnew (List.mem_map.2 ⟨_, h, heq⟩)
      rw [List.lookup_cons, beq_false_of_ne hne]
      exact ih hrest h

/-- Looking into the bucket of the hash finds what there is. -/
theorem Filed.find?_eq_table (h : c.Filed) (source : ProgramSource) :
    c.find? source = c.table source := by
  cases htable : c.table source with
  | none =>
    refine Option.eq_none_iff_forall_ne_some.2 fun p hp => ?_
    obtain ⟨hmem, hsource⟩ := mem_of_find? hp
    exact List.find?_eq_none.1 htable p hmem (by simpa using hsource)
  | some p =>
    obtain ⟨hmem, rfl⟩ := h.table_eq_some.1 htable
    obtain ⟨⟨key, bucket⟩, hentry, hp⟩ := mem_programs.1 hmem
    have hbucket : c.bucket (c.sourceHash p.source) = bucket := by
      rw [h.hashes _ hentry p hp, ProgramCache.bucket, lookup_of_mem h.buckets hentry]
      rfl
    cases hfound : c.find? p.source with
    | none =>
      rw [find?, hbucket] at hfound
      exact absurd (List.find?_eq_none.1 hfound p hp) (by simp)
    | some q =>
      obtain ⟨hq, hsource⟩ := mem_of_find? hfound
      rw [h.eq_of_source hq hmem hsource]

/-! ## What insertions and removals leave -/

theorem perm_flatMap_addTo (key : UInt64) (buckets : List (UInt64 × List CompiledProgram)) :
    ((addTo key p buckets).flatMap (·.2)).Perm (buckets.flatMap (·.2) ++ [p]) := by
  induction buckets with
  | nil => simp [addTo]
  | cons entry rest ih =>
    unfold addTo
    by_cases hkey : entry.1 = key
    · rw [if_pos hkey]
      simp only [List.flatMap_cons, List.append_assoc]
      exact List.perm_append_comm.append_left _
    · rw [if_neg hkey]
      simp only [List.flatMap_cons, List.append_assoc]
      exact ih.append_left _

theorem perm_programs_insert : (c.insert p).programs.Perm (c.programs ++ [p]) :=
  perm_flatMap_addTo _ _

/-- An entry after an insertion is an old one, or one with the hash and the program. -/
theorem mem_addTo {key : UInt64} {buckets : List (UInt64 × List CompiledProgram)}
    {entry : UInt64 × List CompiledProgram} (h : entry ∈ addTo key p buckets) :
    entry ∈ buckets ∨ entry.1 = key ∧
      ∀ q ∈ entry.2, q = p ∨ ∃ old ∈ buckets, old.1 = key ∧ q ∈ old.2 := by
  induction buckets with
  | nil =>
    obtain rfl := List.mem_singleton.1 h
    exact .inr ⟨rfl, fun q hq => .inl (List.mem_singleton.1 hq)⟩
  | cons old rest ih =>
    unfold addTo at h
    by_cases hkey : old.1 = key
    · rw [if_pos hkey] at h
      rcases List.mem_cons.1 h with rfl | h
      · refine .inr ⟨hkey, fun q hq => ?_⟩
        rcases List.mem_append.1 hq with hq | hq
        · exact .inr ⟨old, List.mem_cons_self, hkey, hq⟩
        · exact .inl (List.mem_singleton.1 hq)
      · exact .inl (List.mem_cons_of_mem _ h)
    · rw [if_neg hkey] at h
      rcases List.mem_cons.1 h with rfl | h
      · exact .inl List.mem_cons_self
      · rcases ih h with h | ⟨hentry, hmem⟩
        · exact .inl (List.mem_cons_of_mem _ h)
        · refine .inr ⟨hentry, fun q hq => (hmem q hq).imp_right ?_⟩
          rintro ⟨old, hold, h⟩
          exact ⟨old, List.mem_cons_of_mem _ hold, h⟩

theorem nodup_keys_addTo {key : UInt64} {buckets : List (UInt64 × List CompiledProgram)}
    (h : (buckets.map Prod.fst).Nodup) : ((addTo key p buckets).map Prod.fst).Nodup := by
  induction buckets with
  | nil => simp [addTo]
  | cons old rest ih =>
    obtain ⟨hnew, hrest⟩ := List.nodup_cons.1 h
    unfold addTo
    by_cases hkey : old.1 = key
    · rw [if_pos hkey]
      exact List.nodup_cons.2 ⟨hnew, hrest⟩
    · rw [if_neg hkey]
      refine List.nodup_cons.2 ⟨fun hmem => ?_, ih hrest⟩
      obtain ⟨entry, hentry, heq⟩ := List.mem_map.1 hmem
      rcases mem_addTo hentry with hold | ⟨hentryKey, -⟩
      · exact hnew (List.mem_map.2 ⟨entry, hold, heq⟩)
      · exact hkey (heq.symm.trans hentryKey)

/-- A program with new sources can be inserted. -/
theorem Filed.insert (h : c.Filed) (hnew : c.table p.source = none) : (c.insert p).Filed where
  buckets := nodup_keys_addTo h.buckets
  hashes := by
    intro entry hentry q hq
    rcases mem_addTo hentry with hold | ⟨hkey, hmem⟩
    · exact h.hashes entry hold q hq
    · rw [hkey]
      rcases hmem q hq with rfl | ⟨old, hold, holdKey, hq⟩
      · rfl
      · rw [← holdKey]
        exact h.hashes old hold q hq
  sources := by
    rw [(perm_programs_insert.map _).nodup_iff, List.map_append, List.nodup_append]
    refine ⟨h.sources, by simp, fun s hs t ht hst => ?_⟩
    obtain rfl : t = p.source := by simpa using ht
    obtain ⟨q, hq, hsource⟩ := List.mem_map.1 hs
    exact List.find?_eq_none.1 hnew q hq (by simpa using hsource.trans hst)

theorem programs_filter (keep : CompiledProgram → Bool) :
    (c.filter keep).programs = c.programs.filter keep := by
  unfold programs filter
  generalize c.buckets = buckets
  induction buckets with
  | nil => rfl
  | cons entry rest ih =>
    rw [List.flatMap_cons, List.filter_append, ← ih, List.map_cons]
    -- a bucket that is dropped is empty, and contributes nothing
    cases hbucket : entry.2.filter keep with
    | nil => simp [hbucket]
    | cons q more => simp [hbucket]

/-- The programs are those that nobody holds, and those that stay. -/
theorem perm_unused (c : ProgramCache) (held : List ProgramId) :
    (c.programs.map (·.id)).Perm ((c.unused held).map (·.id) ++
      (c.filter fun p => held.contains p.id).programs.map (·.id)) := by
  rw [programs_filter, ← List.map_append]
  refine List.Perm.map _ ?_
  have hsplit := List.filter_append_perm (fun p : CompiledProgram => !held.contains p.id) c.programs
  simp only [Bool.not_not] at hsplit
  exact hsplit.symm

theorem Filed.filter (h : c.Filed) (keep : CompiledProgram → Bool) : (c.filter keep).Filed where
  buckets := by
    refine (List.filter_sublist.map Prod.fst).nodup ?_
    rw [List.map_map]
    exact h.buckets
  hashes := by
    intro entry hentry q hq
    obtain ⟨⟨key, bucket⟩, hbucket, rfl⟩ := List.mem_map.1 (List.mem_filter.1 hentry).1
    exact h.hashes (key, bucket) hbucket q (List.mem_filter.1 hq).1
  sources := by
    rw [programs_filter]
    exact h.sources.sublist (List.filter_sublist.map _)

theorem Filed.table_insert (h : c.Filed) (hnew : c.table p.source = none) :
    (c.insert p).table = Function.update c.table p.source (some p) := by
  funext source
  refine Option.ext fun q => ?_
  rw [(h.insert hnew).table_eq_some, mem_insert]
  by_cases hsource : source = p.source
  · subst hsource
    rw [Function.update_self, Option.some.injEq]
    constructor
    · rintro ⟨rfl | hq, hqp⟩
      · rfl
      · exact absurd (by simpa using hqp) (List.find?_eq_none.1 hnew q hq)
    · rintro rfl
      exact ⟨.inl rfl, rfl⟩
  · rw [Function.update_of_ne hsource, h.table_eq_some]
    refine and_congr_left fun hq => or_iff_right ?_
    rintro rfl
    exact hsource hq.symm

theorem Filed.table_filter (h : c.Filed) (keep : CompiledProgram → Bool) (source : ProgramSource) :
    (c.filter keep).table source = (c.table source).filter keep := by
  refine Option.ext fun q => ?_
  rw [(h.filter keep).table_eq_some, mem_filter, Option.filter_eq_some_iff, h.table_eq_some]
  exact and_right_comm

/-- A trace changes neither the answers nor the cache nor the device. -/
theorem acquire_traced (c : ProgramCache) (name : String) (source : ProgramSource) (d : Traced δ) :
    c.acquire name source d.device =
      ((c.acquire name source d).1, (c.acquire name source d).2.1,
        (c.acquire name source d).2.2.device) := by
  unfold acquire
  cases c.find? source with
  | some p => rfl
  | none =>
    simp only [Traced.compile_eq]
    rcases Device.compile d.device name source with ⟨_ | _, device⟩ <;> rfl

theorem purge_traced (c : ProgramCache) (held : List ProgramId) (d : Traced δ) :
    c.purge held d.device = ((c.purge held d).1, (c.purge held d).2.device) := by
  have hcommands {ε : Type} [Device ε] (e : ε) : (c.purge held e).2 =
      ((c.unused held).map fun p => Command.releaseProgram p.id).foldl Device.perform e :=
    List.foldl_map.symm
  refine Prod.ext rfl ?_
  rw [hcommands, hcommands, Traced.foldl_perform]

end ProgramCache

/-! ## Sessions -/

/-- A cache in use: with a device, and with the programs that callers hold, each as often as it is
held. -/
structure ProgramSession (δ : Type) where
  /-- The cache. -/
  cache : ProgramCache
  /-- The programs that are held. -/
  handles : List CompiledProgram
  /-- The device. -/
  device : Traced δ

/-- A call of the cache, or what a caller does with a program. -/
inductive ProgramCall
  /-- Ask for the program of two sources, and hold it. -/
  | acquire (name : String) (source : ProgramSource)
  /-- Let go of a program. -/
  | drop (program : CompiledProgram)
  /-- Release the programs that nobody holds. -/
  | purge

/-- The answer to a call. -/
inductive ProgramAnswer
  /-- The program, or why it cannot be compiled. -/
  | acquired (result : Except CompileError CompiledProgram)
  /-- No answer. -/
  | dropped
  /-- The number of programs that were released. -/
  | purged (count : Nat)

namespace ProgramSession

variable {δ : Type} [Device δ]

/-- Nothing is cached and nothing is held. -/
def start (sourceHash : ProgramSource → UInt64) (d : δ) : ProgramSession δ :=
  ⟨{ sourceHash }, [], .start d⟩

/-- Make a call. -/
def call (s : ProgramSession δ) : ProgramCall → ProgramAnswer × ProgramSession δ
  | .acquire name source =>
    let (result, cache, device) := s.cache.acquire name source s.device
    (.acquired result, ⟨cache, s.handles ++ result.toOption.toList, device⟩)
  | .drop program => (.dropped, { s with handles := s.handles.erase program })
  | .purge =>
    let held := s.handles.map (·.id)
    let (cache, device) := s.cache.purge held s.device
    (.purged (s.cache.unused held).length, { s with cache, device })

/-- Make calls one after the other. -/
def after (s : ProgramSession δ) (calls : List ProgramCall) : ProgramSession δ :=
  calls.foldl (fun s call => (s.call call).2) s

end ProgramSession

/-- A step of an exact map while some programs are held: the call, its answer, what the device was
used for, and the map afterwards. -/
inductive TableStep (table : ProgramSource → Option CompiledProgram)
    (handles : List CompiledProgram) :
    ProgramCall → ProgramAnswer → List Use → (ProgramSource → Option CompiledProgram) → Prop
  /-- What is in the map is not compiled. -/
  | known (name : String) {source : ProgramSource} {program : CompiledProgram}
      (h : table source = some program) (hsource : program.source = source) :
      TableStep table handles (.acquire name source) (.acquired (.ok program)) [] table
  /-- What is not in the map is compiled, and enters it. -/
  | compiled (name : String) {source : ProgramSource} (id : ProgramId)
      (h : table source = none) :
      TableStep table handles (.acquire name source) (.acquired (.ok ⟨id, name, source⟩))
        [.compiled name source (.ok id)]
        (Function.update table source (some ⟨id, name, source⟩))
  /-- What cannot be compiled does not enter the map. -/
  | refused (name : String) {source : ProgramSource} (reason : String)
      (h : table source = none) :
      TableStep table handles (.acquire name source) (.acquired (.error ⟨name, reason, source⟩))
        [.compiled name source (.error reason)] table
  /-- To let go of a program does nothing yet. -/
  | dropped (program : CompiledProgram) :
      TableStep table handles (.drop program) .dropped [] table
  /-- The programs of the map that are not held are released, each once, and leave the map. -/
  | purged {released : List CompiledProgram} (honce : (released.map (·.id)).Nodup)
      (hreleased : ∀ p, p ∈ released ↔ table p.source = some p ∧ p ∉ handles) :
      TableStep table handles .purge (.purged released.length)
        (released.map fun p => .performed (.releaseProgram p.id))
        fun source => (table source).filter fun p => decide (p ∈ handles)

namespace ProgramSession

variable {δ : Type} [Device δ] {s : ProgramSession δ}

/-! ### One call -/

/-- A program is found, or compiled, or refused by the device. -/
theorem acquire_cases (s : ProgramSession δ) (name : String) (source : ProgramSource) :
    (∃ p, s.cache.find? source = some p ∧
      s.call (.acquire name source) =
        (.acquired (.ok p), { s with handles := s.handles ++ [p] })) ∨
    (∃ id device, s.cache.find? source = none ∧
      s.call (.acquire name source) =
        (.acquired (.ok ⟨id, name, source⟩),
          { cache := s.cache.insert ⟨id, name, source⟩
            handles := s.handles ++ [⟨id, name, source⟩]
            device := ⟨device, s.device.uses ++ [.compiled name source (.ok id)]⟩ })) ∨
    (∃ reason device, s.cache.find? source = none ∧
      s.call (.acquire name source) =
        (.acquired (.error ⟨name, reason, source⟩),
          { s with
            device := ⟨device, s.device.uses ++ [.compiled name source (.error reason)]⟩ })) := by
  cases hfound : s.cache.find? source with
  | some p =>
    refine .inl ⟨p, rfl, ?_⟩
    simp only [call, ProgramCache.acquire, hfound, Except.toOption, Option.toList]
  | none =>
    right
    cases hanswer : (Device.compile s.device.device name source).1 with
    | ok id =>
      refine .inl ⟨id, (Device.compile s.device.device name source).2, rfl, ?_⟩
      simp only [call, ProgramCache.acquire, hfound, Traced.compile_eq, hanswer, Except.toOption,
        Option.toList]
    | error reason =>
      refine .inr ⟨reason, (Device.compile s.device.device name source).2, rfl, ?_⟩
      simp only [call, ProgramCache.acquire, hfound, Traced.compile_eq, hanswer, Except.toOption,
        Option.toList, List.append_nil]

/-- A purge keeps the programs that are held and releases the others, one after the other. -/
theorem purge_eq (s : ProgramSession δ) :
    s.call .purge =
      let held := s.handles.map (·.id)
      let released := s.cache.unused held
      (.purged released.length,
        { s with
          cache := s.cache.filter fun p => held.contains p.id
          device := (released.map fun p => Command.releaseProgram p.id).foldl Device.perform
            s.device }) := by
  simp only [call, ProgramCache.purge, List.foldl_map]

/-- The cache is in order, what is held is in the cache, and the programs that came about are
accounted for. -/
structure Orderly (s : ProgramSession δ) : Prop where
  filed : s.cache.Filed
  handles : ∀ p ∈ s.handles, p ∈ s.cache.programs
  accounts : Accounted s.device.newPrograms s.device.lostPrograms (s.cache.programs.map (·.id))

omit [Device δ] in
theorem orderly_start (sourceHash : ProgramSource → UInt64) (d : δ) :
    (start sourceHash d).Orderly where
  filed := ⟨List.nodup_nil, nofun, List.nodup_nil⟩
  handles := nofun
  accounts := .refl _

theorem Orderly.acquire (h : s.Orderly) (name : String) (source : ProgramSource) :
    (s.call (.acquire name source)).2.Orderly := by
  have happend {programs : List CompiledProgram} {p : CompiledProgram} (hp : p ∈ programs)
      (hkeep : ∀ q ∈ s.cache.programs, q ∈ programs) : ∀ q ∈ s.handles ++ [p], q ∈ programs := by
    intro q hq
    rcases List.mem_append.1 hq with hq | hq
    · exact hkeep q (h.handles q hq)
    · rwa [List.mem_singleton.1 hq]
  rcases s.acquire_cases name source with
    ⟨p, hfound, hcall⟩ | ⟨id, device, hnone, hcall⟩ | ⟨reason, device, -, hcall⟩
  · rw [hcall]
    exact ⟨h.filed, happend (ProgramCache.mem_of_find? hfound).1 fun _ hq => hq, h.accounts⟩
  · rw [hcall]
    refine ⟨h.filed.insert ((h.filed.find?_eq_table source).symm.trans hnone),
      happend (ProgramCache.mem_insert.2 (.inl rfl)) fun q hq =>
        ProgramCache.mem_insert.2 (.inr hq), ?_⟩
    simp only [Traced.newPrograms_compiled, Traced.lostPrograms_compiled]
    have howned := (ProgramCache.perm_programs_insert (c := s.cache)
      (p := ⟨id, name, source⟩)).map (·.id)
    rw [List.map_append] at howned
    exact h.accounts.create howned
  · rw [hcall]
    refine ⟨h.filed, h.handles, ?_⟩
    simp only [Traced.newPrograms_compiled, Traced.lostPrograms_compiled]
    rw [Except.toOption, Option.toList, List.append_nil]
    exact h.accounts

theorem Orderly.purge (h : s.Orderly) : (s.call .purge).2.Orderly := by
  rw [purge_eq]
  refine ⟨h.filed.filter _, fun p hp => ?_, ?_⟩
  · refine ProgramCache.mem_filter.2 ⟨h.handles p hp, ?_⟩
    exact List.contains_iff_mem.2 (List.mem_map_of_mem hp)
  · simp only [Traced.newPrograms_foldl, Traced.lostPrograms_release]
    exact h.accounts.release (s.cache.perm_unused _)

theorem Orderly.call (h : s.Orderly) (call : ProgramCall) : (s.call call).2.Orderly := by
  cases call with
  | acquire name source => exact h.acquire name source
  | drop p => exact ⟨h.filed, fun q hq => h.handles q (List.mem_of_mem_erase hq), h.accounts⟩
  | purge => exact h.purge

theorem Orderly.after (h : s.Orderly) (calls : List ProgramCall) : (s.after calls).Orderly := by
  induction calls generalizing s with
  | nil => exact h
  | cons call rest ih => exact ih (h.call call)

/-! ### Steps of the map -/

omit [Device δ] in
/-- What is held is told from its number, where numbers are distinct. -/
theorem Orderly.mem_held (h : s.Orderly) (hfresh : s.device.newPrograms.Nodup)
    {p : CompiledProgram} (hp : p ∈ s.cache.programs) :
    p.id ∈ s.handles.map (·.id) ↔ p ∈ s.handles := by
  refine ⟨fun hid => ?_, List.mem_map_of_mem⟩
  obtain ⟨q, hq, hqp⟩ := List.mem_map.1 hid
  obtain ⟨-, hids, -⟩ := h.accounts.exact hfresh
  rwa [← List.inj_on_of_nodup_map hids (h.handles q hq) hp hqp]

theorem Orderly.step_purge (h : s.Orderly) (hfresh : s.device.newPrograms.Nodup) :
    ∃ uses, (s.call .purge).2.device.uses = s.device.uses ++ uses ∧
      TableStep s.cache.table s.handles .purge (s.call .purge).1 uses
        (s.call .purge).2.cache.table := by
  have hids := (h.accounts.exact hfresh).2.1
  rw [purge_eq]
  simp only [Traced.foldl_perform, List.map_map]
  refine ⟨_, rfl, ?_⟩
  have htable : (s.cache.filter fun p => (s.handles.map (·.id)).contains p.id).table =
      fun source => (s.cache.table source).filter fun p => decide (p ∈ s.handles) := by
    funext source
    rw [h.filed.table_filter]
    cases hp : s.cache.table source with
    | none => rfl
    | some p =>
      have hheld := h.mem_held hfresh (h.filed.table_eq_some.1 hp).1
      simp only [Option.filter_some, List.contains_iff_mem, hheld, decide_eq_true_eq]
  rw [htable]
  refine .purged (hids.sublist (List.filter_sublist.map _)) fun p => ?_
  rw [ProgramCache.mem_unused, h.filed.table_eq_some, and_iff_left rfl]
  exact and_congr_right fun hp => not_congr (h.mem_held hfresh hp)

theorem Orderly.step (h : s.Orderly) (hfresh : s.device.newPrograms.Nodup) (call : ProgramCall) :
    ∃ uses, (s.call call).2.device.uses = s.device.uses ++ uses ∧
      TableStep s.cache.table s.handles call (s.call call).1 uses (s.call call).2.cache.table := by
  cases call with
  | acquire name source =>
    rcases s.acquire_cases name source with
      ⟨p, hfound, hcall⟩ | ⟨id, device, hnone, hcall⟩ | ⟨reason, device, hnone, hcall⟩
    · rw [hcall]
      refine ⟨[], (List.append_nil _).symm, .known name ?_ (ProgramCache.mem_of_find? hfound).2⟩
      rw [← h.filed.find?_eq_table, hfound]
    · have hnew : s.cache.table source = none := by rw [← h.filed.find?_eq_table, hnone]
      rw [hcall]
      refine ⟨_, rfl, ?_⟩
      have htable := h.filed.table_insert (p := ⟨id, name, source⟩) hnew
      simp only [htable]
      exact .compiled name id hnew
    · rw [hcall]
      exact ⟨_, rfl, .refused name reason (by rw [← h.filed.find?_eq_table, hnone])⟩
  | drop p => exact ⟨[], (List.append_nil _).symm, .dropped p⟩
  | purge => exact h.step_purge hfresh

/-- A program that is refused leaves the cache as it was. -/
theorem cache_of_refused {name : String} {source : ProgramSource} {e : CompileError}
    (h : (s.call (.acquire name source)).1 = .acquired (.error e)) :
    (s.call (.acquire name source)).2.cache = s.cache := by
  rcases s.acquire_cases name source with
    ⟨p, -, hcall⟩ | ⟨id, device, -, hcall⟩ | ⟨reason, device, -, hcall⟩
  · rw [hcall] at h
    cases h
  · rw [hcall] at h
    cases h
  · rw [hcall]

/-- Whatever the hash and whatever is called, on a device that hands out each program once: every
call is a step of the map, and a program that is refused leaves the cache as it was. The map has
just the programs of the cache, no two of which have the same sources; what is held is among them;
and over all calls no program was released twice, and none that is still in the cache. -/
theorem refines_table (sourceHash : ProgramSource → UInt64) (d : δ) (calls : List ProgramCall)
    (hfresh : ((start sourceHash d).after calls).device.newPrograms.Nodup) :
    let s := (start sourceHash d).after calls
    (∀ call, ∃ uses, (s.call call).2.device.uses = s.device.uses ++ uses ∧
      TableStep s.cache.table s.handles call (s.call call).1 uses (s.call call).2.cache.table) ∧
    (∀ name source e, (s.call (.acquire name source)).1 = .acquired (.error e) →
      (s.call (.acquire name source)).2.cache = s.cache) ∧
    (∀ p, p ∈ s.cache.programs ↔ s.cache.table p.source = some p) ∧
    (s.cache.programs.map (·.source)).Nodup ∧
    (∀ p ∈ s.handles, p ∈ s.cache.programs) ∧
    s.device.lostPrograms.Nodup ∧
    ∀ p ∈ s.cache.programs, p.id ∉ s.device.lostPrograms := by
  intro s
  have h : s.Orderly := (orderly_start sourceHash d).after calls
  obtain ⟨howned, -, honce⟩ := h.accounts.exact hfresh
  refine ⟨h.step hfresh, fun _ _ _ => cache_of_refused, fun p => ?_, h.filed.sources, h.handles,
    honce, fun p hp => ((howned p.id).1 (List.mem_map_of_mem hp)).2⟩
  rw [h.filed.table_eq_some, and_iff_left rfl]

namespace Sample

/-- The sources of a program whose pixel stage ends with a comment. -/
def source (comment : String) : ProgramSource := ⟨"void main()", "void main()//" ++ comment⟩

/-- Two programs, the first of them twice, and one that is refused; then the second is let go. -/
def calls : List ProgramCall :=
  [.acquire "a" (source "a"), .acquire "b" (source "b"), .acquire "again" (source "a"),
    .acquire "bad" ⟨"", ""⟩, .drop ⟨⟨2⟩, "b", source "b"⟩]

end Sample

open Sample in
/-- With one hash for all sources: two programs were compiled, a purge is a step of the map and
releases the second. -/
theorem refines_table_sample :
    let s := (start (fun _ => 0) ({} : Headless)).after calls
    s.device.newPrograms = [⟨1⟩, ⟨2⟩] ∧
      (∃ uses, (s.call .purge).2.device.uses = s.device.uses ++ uses ∧
        TableStep s.cache.table s.handles .purge (s.call .purge).1 uses
          (s.call .purge).2.cache.table) ∧
      (s.call .purge).2.device.lostPrograms = [⟨2⟩] ∧
      (s.call .purge).2.cache.programs = [⟨⟨1⟩, "a", source "a"⟩] := by
  intro s
  have hnew : s.device.newPrograms = [⟨1⟩, ⟨2⟩] := by decide +kernel
  have hfresh : s.device.newPrograms.Nodup := by rw [hnew]; decide
  obtain ⟨hstep, -⟩ := refines_table (fun _ => 0) ({} : Headless) calls hfresh
  exact ⟨hnew, hstep .purge, by decide +kernel, by decide +kernel⟩

end ProgramSession

end MaterialViewer
