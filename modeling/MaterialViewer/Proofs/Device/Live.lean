import Mathlib.Data.List.Induction
import Mathlib.Data.List.Nodup
import MaterialViewer.Proofs.Device.Traced

/-!
# Proofs: what is live on a device

The programs and textures that were created and not given up since, told from the uses of a device.
A trace is proper if every command is about programs and textures that are live at that time. What
was created is then what was given up and what is live, so that the accounts of a cache tell what is
live. The tables of a headless device hold just that, whatever it is used for.
-/

namespace MaterialViewer

/-- The program that a command is about. -/
def Command.program? : Command → Option ProgramId
  | releaseProgram p | useProgram p | setUniform p _ _ | uploadAttribute p _ _ _
  | uploadIndices p _ | draw p _ => some p
  | releaseTexture _ | bindTexture _ _ _ | setBlending _ => none

/-- The texture that a command is about. -/
def Command.texture? : Command → Option TextureId
  | releaseTexture t | bindTexture t _ _ => some t
  | _ => none

namespace Use

section Live

variable {α : Type} [DecidableEq α] {new? lost? : Use → Option α} {uses : List Use} {use : Use}

/-- What is live after one more use. -/
def onLive (new? lost? : Use → Option α) (live : List α) (use : Use) : List α :=
  match lost? use with
  | some x => live.erase x
  | none => live ++ (new? use).toList

/-- What was created and not given up since. -/
def live (new? lost? : Use → Option α) (uses : List Use) : List α :=
  uses.foldl (onLive new? lost?) []

theorem live_concat :
    live new? lost? (uses ++ [use]) = onLive new? lost? (live new? lost? uses) use := by
  rw [live, List.foldl_append]
  rfl

omit [DecidableEq α] in
theorem filterMap_concat (h : new? use = none) (uses : List Use) :
    (uses ++ [use]).filterMap new? = uses.filterMap new? := by
  rw [List.filterMap_append, List.filterMap_cons_none h, List.filterMap_nil, List.append_nil]

/-- What is live was created. -/
theorem live_sublist (uses : List Use) : (live new? lost? uses).Sublist (uses.filterMap new?) := by
  induction uses using List.reverseRecOn with
  | nil => exact List.nil_sublist _
  | append_singleton uses use ih =>
    rw [live_concat, onLive, List.filterMap_append]
    cases lost? use with
    | none =>
      cases hnew : new? use with
      | none => simpa [hnew] using ih
      | some y => simpa [hnew] using ih.append_right [y]
    | some x => exact (List.erase_sublist.trans ih).trans (List.sublist_append_left _ _)

/-- A use by which nothing comes about and nothing is given up. -/
theorem live_same (hnew : new? use = none) (hlost : lost? use = none) :
    live new? lost? (uses ++ [use]) = live new? lost? uses := by
  rw [live_concat, onLive, hlost, hnew]
  exact List.append_nil _

/-- If only what is live is given up, what was created is what was given up and what is live. -/
theorem accounted_live (happart : ∀ use, lost? use ≠ none → new? use = none)
    (hlost : ∀ before use after x, uses = before ++ use :: after → lost? use = some x →
      x ∈ live new? lost? before) :
    Accounted (uses.filterMap new?) (uses.filterMap lost?) (live new? lost? uses) := by
  induction uses using List.reverseRecOn with
  | nil => exact .refl _
  | append_singleton uses use ih =>
    have hbefore := ih fun before use' after x heq =>
      hlost before use' (after ++ [use]) x (by simp [heq])
    rw [live_concat, onLive, List.filterMap_append, List.filterMap_append]
    cases hx : lost? use with
    | none =>
      cases hy : new? use with
      | none => simpa [hx, hy] using hbefore
      | some y => simpa [hx, hy] using hbefore.create (.refl _)
    | some x =>
      have hnew : new? use = none := happart use (by simp [hx])
      have hmem : x ∈ live new? lost? uses := hlost uses use [] x rfl hx
      simpa [hx, hnew] using hbefore.release (List.perm_cons_erase hmem)

end Live

/-- The programs that were created and not given up since. -/
def livePrograms : List Use → List ProgramId := live newProgram? lostProgram?

/-- The textures that were created and not given up since. -/
def liveTextures : List Use → List TextureId := live newTexture? lostTexture?

/-- The use is about programs and textures that are live after the uses before. -/
structure IsOfLive (before : List Use) (use : Use) : Prop where
  program : ∀ c p, use = .performed c → c.program? = some p → p ∈ livePrograms before
  texture : ∀ c t, use = .performed c → c.texture? = some t → t ∈ liveTextures before

/-- Every use is about programs and textures that are live at that time. -/
def Proper (uses : List Use) : Prop :=
  ∀ before use after, uses = before ++ use :: after → IsOfLive before use

variable {uses more : List Use} {use : Use}

theorem proper_nil : Proper [] := fun _ _ _ h => by simp at h

theorem Proper.concat (h : Proper uses) (huse : IsOfLive uses use) : Proper (uses ++ [use]) := by
  intro before use' after heq
  rcases List.eq_nil_or_concat after with rfl | ⟨front, last, rfl⟩
  · obtain ⟨rfl, hlast⟩ := List.append_inj' heq rfl
    obtain rfl := (List.cons.inj hlast).1
    exact huse
  · rw [List.concat_eq_append, ← List.cons_append, ← List.append_assoc] at heq
    exact h before use' front (List.append_inj' heq rfl).1

theorem Proper.of_append (h : Proper (uses ++ more)) : Proper uses := by
  intro before use after heq
  exact h before use (after ++ more) (by rw [heq, List.append_assoc, List.cons_append])

/-- Uses that are no commands are proper. -/
theorem Proper.append (h : Proper uses) (hmore : ∀ c, .performed c ∉ more) :
    Proper (uses ++ more) := by
  induction more using List.reverseRecOn with
  | nil => rwa [List.append_nil]
  | append_singleton more use ih =>
    rw [← List.append_assoc]
    have hnot : ∀ c, use ≠ .performed c := fun c heq => hmore c (by simp [heq])
    refine (ih fun c hc => hmore c (List.mem_append_left _ hc)).concat ⟨?_, ?_⟩
    · exact fun c p heq => absurd heq (hnot c)
    · exact fun c t heq => absurd heq (hnot c)

/-- Programs that are live, each as often as it is given up, can be given up. -/
theorem Proper.release (h : Proper uses) {released kept : List ProgramId}
    (hlive : (livePrograms uses).Perm (released ++ kept)) :
    Proper (uses ++ released.map fun p => .performed (.releaseProgram p)) := by
  induction released generalizing uses with
  | nil => rwa [List.map_nil, List.append_nil]
  | cons p rest ih =>
    have hp : p ∈ livePrograms uses := hlive.mem_iff.2 List.mem_cons_self
    rw [List.map_cons, ← List.singleton_append, ← List.append_assoc]
    refine ih (h.concat ⟨?_, ?_⟩) ?_
    · rintro _ q ⟨⟩ ⟨⟩
      exact hp
    · rintro _ t ⟨⟩ ⟨⟩
    · rw [livePrograms, live_concat]
      exact (hlive.erase p).trans (by rw [List.cons_append, List.erase_cons_head])

theorem Proper.programs (h : Proper uses) :
    Accounted (uses.filterMap newProgram?) (uses.filterMap lostProgram?) (livePrograms uses) := by
  refine accounted_live (fun use hlost => ?_) fun before use after p heq hp => ?_
  · cases use <;> first | rfl | exact absurd rfl hlost
  · cases use with
    | performed c =>
      cases c with
      | releaseProgram q =>
        obtain rfl := Option.some.inj hp
        exact (h _ _ _ heq).program _ q rfl rfl
      | _ => cases hp
    | _ => cases hp

theorem Proper.textures (h : Proper uses) :
    Accounted (uses.filterMap newTexture?) (uses.filterMap lostTexture?) (liveTextures uses) := by
  refine accounted_live (fun use hlost => ?_) fun before use after t heq ht => ?_
  · cases use <;> first | rfl | exact absurd rfl hlost
  · cases use with
    | performed c =>
      cases c with
      | releaseTexture q =>
        obtain rfl := Option.some.inj ht
        exact (h _ _ _ heq).texture _ q rfl rfl
      | _ => cases ht
    | _ => cases ht

/-- What is live came about and was not given up, where nothing comes about twice. -/
theorem Proper.mem_live (h : Proper uses) (hprograms : (uses.filterMap newProgram?).Nodup)
    (htextures : (uses.filterMap newTexture?).Nodup) :
    (∀ p, p ∈ livePrograms uses ↔
      p ∈ uses.filterMap newProgram? ∧ p ∉ uses.filterMap lostProgram?) ∧
    ∀ t, t ∈ liveTextures uses ↔
      t ∈ uses.filterMap newTexture? ∧ t ∉ uses.filterMap lostTexture? :=
  ⟨(h.programs.exact hprograms).1, (h.textures.exact htextures).1⟩

end Use

/-- What is owned is what is live, if both account for what was created. -/
theorem Accounted.perm_owned {α : Type} {created lost owned live : List α}
    (h : Accounted created lost owned) (hlive : Accounted created lost live) : live.Perm owned :=
  (List.perm_append_left_iff lost).1 (hlive.symm.trans h)

/-! ## The tables of a headless device -/

namespace Headless

/-- What was created has numbers that were given out, each once. -/
structure Numbered {α : Type} (number : α → Nat) (last : Nat) (created : List α) : Prop where
  below : ∀ x ∈ created, number x ≤ last
  nodup : created.Nodup

section Numbered

variable {α : Type} {number : α → Nat} {last : Nat} {created : List α} {x : α}

theorem Numbered.next (h : Numbered number last created) : Numbered number (last + 1) created :=
  ⟨fun x hx => Nat.le_succ_of_le (h.below x hx), h.nodup⟩

theorem Numbered.new (h : Numbered number last created) (hx : number x = last + 1) :
    Numbered number (last + 1) (created ++ [x]) := by
  refine ⟨fun y hy => ?_, ?_⟩
  · rcases List.mem_append.1 hy with hy | hy
    · exact Nat.le_succ_of_le (h.below y hy)
    · exact List.mem_singleton.1 hy ▸ Nat.le_of_eq hx
  · rw [List.nodup_append]
    refine ⟨h.nodup, List.nodup_singleton x, fun y hy z hz hyz => ?_⟩
    have hle := h.below y hy
    rw [hyz, List.mem_singleton.1 hz, hx] at hle
    exact Nat.not_succ_le_self _ hle

end Numbered

theorem keys_put {κ α : Type} [DecidableEq κ] {k : κ} {entries : List (κ × α)}
    (h : (Ordered.get? k entries).isSome) (v : α) :
    (Ordered.put k v entries).map Prod.fst = entries.map Prod.fst := by
  induction entries with
  | nil => cases h
  | cons entry rest ih =>
    rw [Ordered.put]
    split
    · rename_i hk
      rw [List.map_cons, List.map_cons, hk]
    · rename_i hk
      rw [Ordered.get?, if_neg hk] at h
      rw [List.map_cons, List.map_cons, ih h]

theorem keys_erase {κ α : Type} [DecidableEq κ] {k : κ} {entries : List (κ × α)}
    (hkeys : (entries.map Prod.fst).Nodup) :
    (Ordered.erase k entries).map Prod.fst = (entries.map Prod.fst).erase k := by
  rw [hkeys.erase_eq_filter, List.filter_map]
  congr 1
  refine List.filter_congr fun entry _ => ?_
  by_cases hk : entry.1 = k <;> simp [hk]

/-- A command that gives up no program leaves the keys of the programs. -/
theorem keys_modifyProgram (d : Headless) (p : ProgramId) (f : HeadlessProgram → HeadlessProgram) :
    (d.modifyProgram p f).programs.map Prod.fst = d.programs.map Prod.fst ∧
      (d.modifyProgram p f).textures = d.textures ∧
      (d.modifyProgram p f).lastNumber = d.lastNumber := by
  unfold modifyProgram
  cases hp : d.program? p with
  | none => exact ⟨rfl, rfl, rfl⟩
  | some program => exact ⟨keys_put (Option.isSome_iff_exists.2 ⟨_, hp⟩) _, rfl, rfl⟩

/-- A command that gives nothing up leaves the tables. -/
theorem tables_perform (d : Headless) {c : Command}
    (hp : Use.lostProgram? (.performed c) = none) (ht : Use.lostTexture? (.performed c) = none) :
    (d.perform c).programs.map Prod.fst = d.programs.map Prod.fst ∧
      (d.perform c).textures = d.textures ∧ (d.perform c).lastNumber = d.lastNumber := by
  cases c with
  | releaseProgram p => cases hp
  | releaseTexture t => cases ht
  | setUniform p name value => exact keys_modifyProgram d p _
  | uploadAttribute p name data components => exact keys_modifyProgram d p _
  | uploadIndices p indices => exact keys_modifyProgram d p _
  | draw p count =>
    show (d.draw p count).programs.map Prod.fst = _ ∧ (d.draw p count).textures = _ ∧
      (d.draw p count).lastNumber = _
    unfold draw
    split
    · split <;> exact ⟨rfl, rfl, rfl⟩
    · exact ⟨rfl, rfl, rfl⟩
  | _ => exact ⟨rfl, rfl, rfl⟩

/-- Nothing was created twice, and the tables of the device hold what is live. -/
structure Mirrors (d : Traced Headless) : Prop where
  newPrograms : Numbered ProgramId.number d.device.lastNumber d.newPrograms
  newTextures : Numbered TextureId.number d.device.lastNumber d.newTextures
  programs : d.device.programs.map Prod.fst = Use.livePrograms d.uses
  textures : d.device.textures.map Prod.fst = Use.liveTextures d.uses

theorem mirrors_start : Mirrors (.start {}) :=
  ⟨⟨nofun, List.nodup_nil⟩, ⟨nofun, List.nodup_nil⟩, rfl, rfl⟩

/-- A use that leaves the tables, and by which nothing comes about and nothing is given up. -/
theorem Mirrors.same {d : Traced Headless} (h : Mirrors d) {device : Headless} {use : Use}
    (htables : device.programs.map Prod.fst = d.device.programs.map Prod.fst ∧
      device.textures = d.device.textures ∧ device.lastNumber = d.device.lastNumber)
    (hp : use.newProgram? = none ∧ use.lostProgram? = none)
    (ht : use.newTexture? = none ∧ use.lostTexture? = none) :
    Mirrors ⟨device, d.uses ++ [use]⟩ := by
  obtain ⟨hprograms, htextures, hlast⟩ := htables
  refine ⟨?_, ?_, ?_, ?_⟩
  · rw [hlast, Traced.newPrograms, Use.filterMap_concat hp.1]
    exact h.newPrograms
  · rw [hlast, Traced.newTextures, Use.filterMap_concat ht.1]
    exact h.newTextures
  · rw [hprograms, Use.livePrograms, Use.live_same hp.1 hp.2]
    exact h.programs
  · rw [htextures, Use.liveTextures, Use.live_same ht.1 ht.2]
    exact h.textures

/-- A device refuses a program and stays as it is, or lists it under the next number. -/
theorem compile_cases (d : Headless) (name : String) (source : ProgramSource) :
    (∃ reason, Device.compile d name source = (.error reason, d)) ∨
      Device.compile d name source = (.ok ⟨d.lastNumber + 1⟩,
        { d with
          lastNumber := d.lastNumber + 1
          programs := d.programs ++ [(⟨d.lastNumber + 1⟩, { name })] }) := by
  show (∃ reason, d.compile name source = _) ∨ d.compile name source = _
  unfold compile
  cases missingStage? source with
  | some stage => exact .inl ⟨_, rfl⟩
  | none => exact .inr rfl

theorem kept_mirrors : Kept Mirrors where
  compile d name source h := by
    rw [Traced.compile_eq]
    rcases compile_cases d.device name source with ⟨reason, hcompile⟩ | hcompile
    · rw [hcompile]
      exact h.same ⟨rfl, rfl, rfl⟩ ⟨rfl, rfl⟩ ⟨rfl, rfl⟩
    · rw [hcompile]
      refine ⟨?_, ?_, ?_, ?_⟩
      · rw [Traced.newPrograms, List.filterMap_append]
        exact h.newPrograms.new rfl
      · rw [Traced.newTextures, Use.filterMap_concat rfl]
        exact h.newTextures.next
      · rw [Use.livePrograms, Use.live_concat, List.map_append, h.programs]
        rfl
      · rw [Use.liveTextures, Use.live_same rfl rfl]
        exact h.textures
  upload d image h := by
    rw [Traced.createTexture_eq]
    refine ⟨?_, ?_, ?_, ?_⟩
    · rw [Traced.newPrograms, Use.filterMap_concat rfl]
      exact h.newPrograms.next
    · rw [Traced.newTextures, List.filterMap_append]
      exact h.newTextures.new rfl
    · rw [Use.livePrograms, Use.live_same rfl rfl]
      exact h.programs
    · rw [Use.liveTextures, Use.live_concat]
      show (d.device.textures ++ [_]).map Prod.fst = _
      rw [List.map_append, h.textures]
      rfl
  command d c h := by
    have hgiven : ∀ {device : Headless} (c : Command), device.lastNumber = d.device.lastNumber →
        Numbered ProgramId.number device.lastNumber
          (Traced.mk device (d.uses ++ [.performed c])).newPrograms ∧
        Numbered TextureId.number device.lastNumber
          (Traced.mk device (d.uses ++ [.performed c])).newTextures := by
      intro device c hlast
      rw [hlast, Traced.newPrograms, Traced.newTextures, Use.filterMap_concat rfl,
        Use.filterMap_concat rfl]
      exact ⟨h.newPrograms, h.newTextures⟩
    cases c with
    | releaseProgram p =>
      refine ⟨(hgiven _ rfl).1, (hgiven _ rfl).2, ?_, ?_⟩
      · show (Ordered.erase p d.device.programs).map Prod.fst =
          Use.livePrograms (d.uses ++ [.performed (.releaseProgram p)])
        rw [keys_erase (h.programs ▸ (Use.live_sublist _).nodup h.newPrograms.nodup), h.programs,
          Use.livePrograms, Use.live_concat]
        rfl
      · exact h.textures.trans (Use.live_same rfl rfl).symm
    | releaseTexture t =>
      refine ⟨(hgiven _ rfl).1, (hgiven _ rfl).2, ?_, ?_⟩
      · exact h.programs.trans (Use.live_same rfl rfl).symm
      · show (Ordered.erase t d.device.textures).map Prod.fst =
          Use.liveTextures (d.uses ++ [.performed (.releaseTexture t)])
        rw [keys_erase (h.textures ▸ (Use.live_sublist _).nodup h.newTextures.nodup), h.textures,
          Use.liveTextures, Use.live_concat]
        rfl
    | _ => exact h.same (tables_perform d.device rfl rfl) ⟨rfl, rfl⟩ ⟨rfl, rfl⟩

end Headless

end MaterialViewer
