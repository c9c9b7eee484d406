import MaterialViewer.Device.ProgramCache
import MaterialViewer.Proofs.Device.Driven

/-!
# Proofs: traced devices

A device of any kind together with everything that it was used for, and what it answered. Forgetting
the trace gives the device back, so what is shown of a trace holds of every kind of devices.

The programs and textures of a trace are accounted for when those that were created are, each once,
those that were given up and those that someone owns. On a device that never hands out the same
thing twice nothing is then given up twice, and nothing that is owned was given up.
-/

namespace MaterialViewer

/-- A use of a device, with the answer. -/
inductive Use
  /-- Sources were compiled under a name. -/
  | compiled (name : String) (source : ProgramSource) (answer : Except String ProgramId)
  /-- An image was uploaded. -/
  | uploaded (image : Image) (texture : TextureId)
  /-- A command was carried out. -/
  | performed (command : Command)

/-- The texture that came about. -/
def Use.newTexture? : Use → Option TextureId
  | uploaded _ texture => some texture
  | _ => none

/-- The texture that was given up. -/
def Use.lostTexture? : Use → Option TextureId
  | performed (.releaseTexture texture) => some texture
  | _ => none

/-- The program that came about. -/
def Use.newProgram? : Use → Option ProgramId
  | compiled _ _ answer => answer.toOption
  | _ => none

/-- The program that was given up. -/
def Use.lostProgram? : Use → Option ProgramId
  | performed (.releaseProgram program) => some program
  | _ => none

/-- A device with its uses so far, in order. -/
structure Traced (δ : Type) where
  /-- The device. -/
  device : δ
  /-- The uses. -/
  uses : List Use := []

namespace Traced

variable {δ : Type} [Device δ] (d : Traced δ)

instance : Device (Traced δ) where
  compile d name source :=
    let (answer, device) := Device.compile d.device name source
    (answer, ⟨device, d.uses ++ [.compiled name source answer]⟩)
  createTexture d image :=
    let (texture, device) := Device.createTexture d.device image
    (texture, ⟨device, d.uses ++ [.uploaded image texture]⟩)
  perform d command := ⟨Device.perform d.device command, d.uses ++ [.performed command]⟩

/-- The textures that came about. -/
def newTextures (d : Traced δ) : List TextureId := d.uses.filterMap Use.newTexture?

/-- The textures that were given up. -/
def lostTextures (d : Traced δ) : List TextureId := d.uses.filterMap Use.lostTexture?

/-- The programs that came about. -/
def newPrograms (d : Traced δ) : List ProgramId := d.uses.filterMap Use.newProgram?

/-- The programs that were given up. -/
def lostPrograms (d : Traced δ) : List ProgramId := d.uses.filterMap Use.lostProgram?

/-- A device of which no use was made yet. -/
def start (d : δ) : Traced δ := ⟨d, []⟩

theorem createTexture_eq (image : Image) :
    Device.createTexture d image =
      ((Device.createTexture d.device image).1, ⟨(Device.createTexture d.device image).2,
        d.uses ++ [.uploaded image (Device.createTexture d.device image).1]⟩) := rfl

theorem compile_eq (name : String) (source : ProgramSource) :
    Device.compile d name source =
      ((Device.compile d.device name source).1, ⟨(Device.compile d.device name source).2,
        d.uses ++ [.compiled name source (Device.compile d.device name source).1]⟩) := rfl

/-- Commands one after the other. -/
theorem foldl_perform (commands : List Command) :
    commands.foldl Device.perform d =
      ⟨commands.foldl Device.perform d.device, d.uses ++ commands.map .performed⟩ := by
  induction commands generalizing d with
  | nil => simp
  | cons command rest ih =>
    rw [List.foldl_cons, ih]
    simp [Device.perform]

theorem newTextures_upload (image : Image) :
    (Device.createTexture d image).2.newTextures =
      d.newTextures ++ [(Device.createTexture d image).1] := by
  simp [newTextures, createTexture_eq, Use.newTexture?]

theorem lostTextures_upload (image : Image) :
    (Device.createTexture d image).2.lostTextures = d.lostTextures := by
  simp [lostTextures, createTexture_eq, Use.lostTexture?]

theorem newTextures_foldl (commands : List Command) :
    (commands.foldl Device.perform d).newTextures = d.newTextures := by
  simp [newTextures, foldl_perform, Use.newTexture?]

theorem lostTextures_release (textures : List TextureId) :
    ((textures.map Command.releaseTexture).foldl Device.perform d).lostTextures =
      d.lostTextures ++ textures := by
  simp [lostTextures, foldl_perform, List.filterMap_map, Function.comp_def, Use.lostTexture?]

omit [Device δ] in
theorem newPrograms_compiled {device : δ} {name : String} {source : ProgramSource}
    {answer : Except String ProgramId} :
    (Traced.mk device (d.uses ++ [.compiled name source answer])).newPrograms =
      d.newPrograms ++ answer.toOption.toList := by
  rw [newPrograms, List.filterMap_append]
  cases answer <;> rfl

omit [Device δ] in
theorem lostPrograms_compiled {device : δ} {name : String} {source : ProgramSource}
    {answer : Except String ProgramId} :
    (Traced.mk device (d.uses ++ [.compiled name source answer])).lostPrograms =
      d.lostPrograms := by
  rw [lostPrograms, List.filterMap_append]
  exact List.append_nil _

theorem newPrograms_foldl (commands : List Command) :
    (commands.foldl Device.perform d).newPrograms = d.newPrograms := by
  simp [newPrograms, foldl_perform, Use.newProgram?]

theorem lostPrograms_release {programs : List CompiledProgram} :
    ((programs.map fun p => Command.releaseProgram p.id).foldl Device.perform d).lostPrograms =
      d.lostPrograms ++ programs.map (·.id) := by
  simp [lostPrograms, foldl_perform, List.filterMap_map, Function.comp_def, Use.lostProgram?]

omit [Device δ] in
/-- If no texture came about twice, a texture has one image. -/
theorem eq_of_uploaded {d : Traced δ} (hfresh : d.newTextures.Nodup) {image image' : Image}
    {t : TextureId} (h : .uploaded image t ∈ d.uses) (h' : .uploaded image' t ∈ d.uses) :
    image = image' := by
  unfold newTextures at hfresh
  generalize d.uses = uses at hfresh h h'
  induction uses with
  | nil => cases h
  | cons use rest ih =>
    have hnew : ∀ {image : Image}, .uploaded image t ∈ rest → t ∈ rest.filterMap Use.newTexture? :=
      fun hmem => List.mem_filterMap.2 ⟨_, hmem, rfl⟩
    rcases List.mem_cons.1 h with rfl | hrest <;> rcases List.mem_cons.1 h' with heq | hrest'
    · exact (Use.uploaded.inj heq).1.symm
    · exact absurd (hnew hrest') (List.nodup_cons.1 hfresh).1
    · rw [← heq] at hfresh
      exact absurd (hnew hrest) (List.nodup_cons.1 hfresh).1
    · exact ih (hfresh.sublist ((List.sublist_cons_self _ _).filterMap _)) hrest hrest'

/-- A device that is driven by a set of commands has some more uses, and the commands among them are
in the set. -/
theorem uses_of_driven {P : Command → Prop} {d d' : Traced δ} (h : Driven P d d') :
    ∃ more, d'.uses = d.uses ++ more ∧ ∀ c, .performed c ∈ more → P c := by
  induction h with
  | refl => exact ⟨[], by simp, by simp⟩
  | @command d₁ c _ hc ih =>
    obtain ⟨more, huses, hmore⟩ := ih
    refine ⟨more ++ [.performed c], ?_, fun c' hc' => ?_⟩
    · show d₁.uses ++ [.performed c] = _
      rw [huses, List.append_assoc]
    · rcases List.mem_append.1 hc' with hc' | hc'
      · exact hmore c' hc'
      · obtain rfl := Use.performed.inj (List.mem_singleton.1 hc')
        exact hc
  | @upload d₁ _ image ih =>
    obtain ⟨more, huses, hmore⟩ := ih
    refine ⟨more ++ [.uploaded image (Device.createTexture d₁.device image).1], ?_, fun c hc => ?_⟩
    · show d₁.uses ++ [_] = _
      rw [huses, List.append_assoc]
    · rcases List.mem_append.1 hc with hc | hc
      · exact hmore c hc
      · cases List.mem_singleton.1 hc

end Traced

/-! ## A device to look at -/

/-- A device that takes everything, and keeps no more than the number of its textures. -/
structure Tally where
  /-- The number of textures. -/
  textures : Nat := 0

namespace Tally

instance : Device Tally where
  compile d _ _ := (.ok ⟨1⟩, d)
  createTexture d _ := (⟨d.textures⟩, ⟨d.textures + 1⟩)
  perform d _ := d

/-- Textures came about once each, and their numbers are below that of the next one. -/
structure Numbered (d : Traced Tally) : Prop where
  below : ∀ t ∈ d.newTextures, t.number < d.device.textures
  nodup : d.newTextures.Nodup

theorem numbered_start (d : Tally) : Numbered (.start d) := ⟨nofun, List.nodup_nil⟩

theorem kept_numbered : Kept Numbered where
  compile d name source h := by
    have hsame : (Device.compile d name source).2.newTextures = d.newTextures := by
      unfold Traced.newTextures
      rw [Traced.compile_eq, List.filterMap_append]
      exact List.append_nil _
    exact ⟨fun t ht => h.below t (hsame ▸ ht), hsame ▸ h.nodup⟩
  upload d image h := by
    have hnew := d.newTextures_upload image
    refine ⟨fun t ht => ?_, ?_⟩
    · rw [hnew] at ht
      rcases List.mem_append.1 ht with hold | hlast
      · exact Nat.lt_succ_of_lt (h.below t hold)
      · exact List.mem_singleton.1 hlast ▸ Nat.lt_succ_self _
    · rw [hnew, List.nodup_append]
      refine ⟨h.nodup, by simp, ?_⟩
      rintro t ht _ hlast rfl
      have hlt := h.below t ht
      rw [List.mem_singleton.1 hlast] at hlt
      exact Nat.lt_irrefl _ hlt
  command d c h := by
    have hsame : (Device.perform d c).newTextures = d.newTextures := d.newTextures_foldl [c]
    exact ⟨fun t ht => h.below t (hsame ▸ ht), hsame ▸ h.nodup⟩

end Tally

/-! ## Accounts -/

section Accounts

variable {α : Type} {created lost owned owned' released : List α} {x : α}

/-- What was created is, each once, what was given up and what is owned. -/
def Accounted (created lost owned : List α) : Prop := created.Perm (lost ++ owned)

theorem Accounted.create (h : Accounted created lost owned) (howned : owned'.Perm (owned ++ [x])) :
    Accounted (created ++ [x]) lost owned' := by
  unfold Accounted
  calc (created ++ [x]).Perm ((lost ++ owned) ++ [x]) := h.append_right [x]
    _ = lost ++ (owned ++ [x]) := List.append_assoc _ _ _
    List.Perm _ (lost ++ owned') := howned.symm.append_left lost

theorem Accounted.release (h : Accounted created lost owned)
    (howned : owned.Perm (released ++ owned')) : Accounted created (lost ++ released) owned' := by
  unfold Accounted
  calc created.Perm (lost ++ owned) := h
    List.Perm _ (lost ++ (released ++ owned')) := howned.append_left lost
    _ = (lost ++ released) ++ owned' := (List.append_assoc _ _ _).symm

/-- If everything was created once, what is owned is what was created and not given up, nothing is
owned twice, and nothing was given up twice. -/
theorem Accounted.exact (h : Accounted created lost owned) (hfresh : created.Nodup) :
    (∀ x, x ∈ owned ↔ x ∈ created ∧ x ∉ lost) ∧ owned.Nodup ∧ lost.Nodup := by
  obtain ⟨hlost, howned, hapart⟩ := List.nodup_append.1 (h.nodup_iff.1 hfresh)
  refine ⟨fun x => ⟨fun hx => ⟨?_, fun hx' => hapart x hx' x hx rfl⟩, ?_⟩, howned, hlost⟩
  · exact h.mem_iff.2 (List.mem_append_right lost hx)
  · rintro ⟨hx, hnot⟩
    exact (List.mem_append.1 (h.mem_iff.1 hx)).resolve_left hnot

end Accounts

end MaterialViewer
