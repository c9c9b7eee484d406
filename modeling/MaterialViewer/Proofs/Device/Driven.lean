import MaterialViewer.Device.Headless

/-!
# Proofs: driving a device

Whatever draws on a device does so by commands and by uploading images. How a device is driven is
said by a set of commands: a device is driven by the set if it comes about by commands of the set
and by uploads, in any order and number. What every command of the set keeps is kept.

A headless device that is neither told to use nor to release a program keeps its live programs and
its current program.
-/

namespace MaterialViewer

section Driven

variable {δ : Type} [Device δ] {P Q : Command → Prop} {d d₁ d₂ : δ}

/-- The second device comes about from the first by commands in `P` and by uploads of images. -/
inductive Driven (P : Command → Prop) (d : δ) : δ → Prop
  | refl : Driven P d d
  | command {d₁ : δ} {c : Command} (h : Driven P d d₁) (hc : P c) :
      Driven P d (Device.perform d₁ c)
  | upload {d₁ : δ} (h : Driven P d d₁) (image : Image) :
      Driven P d (Device.createTexture d₁ image).2

theorem Driven.trans (h : Driven P d d₁) (h' : Driven P d₁ d₂) : Driven P d d₂ := by
  induction h' with
  | refl => exact h
  | command _ hc ih => exact ih.command hc
  | upload _ image ih => exact ih.upload image

theorem Driven.mono (h : Driven P d d₁) (hPQ : ∀ c, P c → Q c) : Driven Q d d₁ := by
  induction h with
  | refl => exact .refl
  | command _ hc ih => exact ih.command (hPQ _ hc)
  | upload _ image ih => exact ih.upload image

/-- A relation that every command of the set and every upload keeps is kept. -/
theorem Driven.keeps {R : δ → δ → Prop} (h : Driven P d d₁) (hrefl : R d d)
    (hcommand : ∀ d₁ c, P c → R d d₁ → R d (Device.perform d₁ c))
    (hupload : ∀ d₁ image, R d d₁ → R d (Device.createTexture d₁ image).2) : R d d₁ := by
  induction h with
  | refl => exact hrefl
  | command _ hc ih => exact hcommand _ _ hc ih
  | upload _ image ih => exact hupload _ image ih

/-- Every use of the device keeps the property. -/
structure Kept (I : δ → Prop) : Prop where
  compile : ∀ d name source, I d → I (Device.compile d name source).2
  upload : ∀ d image, I d → I (Device.createTexture d image).2
  command : ∀ d c, I d → I (Device.perform d c)

theorem Driven.kept {I : δ → Prop} (h : Driven P d d₁) (hI : Kept I) (hd : I d) : I d₁ :=
  h.keeps (R := fun _ d => I d) hd (fun d₁ c _ => hI.command d₁ c) hI.upload

end Driven

/-! ## Programs of a headless device -/

/-- The command neither makes a program current nor gives one up. -/
def Command.IsQuiet : Command → Prop
  | .releaseProgram _ | .useProgram _ => False
  | _ => True

namespace Headless

variable {d d' : Headless} {p q : ProgramId}

/-- The program is on the device. -/
def IsLive (d : Headless) (p : ProgramId) : Prop := (d.program? p).isSome

/-- Live programs stay live, and the current program stays current. -/
structure Steady (d d' : Headless) : Prop where
  live : ∀ p, d.IsLive p → d'.IsLive p
  current : d'.current? = d.current?

theorem Steady.refl (d : Headless) : Steady d d := ⟨fun _ h => h, rfl⟩

theorem Steady.trans {d₁ : Headless} (h : Steady d d₁) (h' : Steady d₁ d') : Steady d d' :=
  ⟨fun p hp => h'.live p (h.live p hp), h'.current.trans h.current⟩

theorem modifyProgram_steady (d : Headless) (q : ProgramId)
    (f : HeadlessProgram → HeadlessProgram) : Steady d (d.modifyProgram q f) := by
  unfold modifyProgram
  split
  · refine ⟨fun p hp => ?_, rfl⟩
    show (Ordered.get? p (Ordered.put q _ d.programs)).isSome
    by_cases hpq : p = q
    · rw [hpq, Ordered.get?_put_self]
      rfl
    · rw [Ordered.get?_put_of_ne hpq]
      exact hp
  · exact .refl d

theorem draw_steady (d : Headless) (q : ProgramId) (count : Nat) : Steady d (d.draw q count) := by
  unfold draw
  split
  · split
    · exact .refl d
    · exact ⟨fun _ hp => hp, rfl⟩
  · exact .refl d

theorem perform_steady (d : Headless) {c : Command} (hc : c.IsQuiet) : Steady d (d.perform c) := by
  cases c with
  | releaseProgram q => exact hc.elim
  | useProgram q => exact hc.elim
  | setUniform q name value => exact modifyProgram_steady d q _
  | releaseTexture t => exact ⟨fun _ hp => hp, rfl⟩
  | bindTexture t unit sampling => exact ⟨fun _ hp => hp, rfl⟩
  | uploadAttribute q name data components => exact modifyProgram_steady d q _
  | uploadIndices q indices => exact modifyProgram_steady d q _
  | draw q count => exact draw_steady d q count
  | setBlending on => exact ⟨fun _ hp => hp, rfl⟩

theorem steady_of_driven {P : Command → Prop} (hP : ∀ c, P c → c.IsQuiet) (h : Driven P d d') :
    Steady d d' :=
  h.keeps (.refl d) (fun _ _ hc hd => hd.trans (perform_steady _ (hP _ hc)))
    (fun _ _ hd => hd.trans ⟨fun _ hp => hp, rfl⟩)

/-- Giving up a program leaves the others, and the current program if it is another one. -/
theorem IsLive.release (h : d.IsLive p) (hpq : p ≠ q) :
    (d.perform (.releaseProgram q)).IsLive p := by
  show (Ordered.get? p (Ordered.erase q d.programs)).isSome
  rw [Ordered.get?_erase_of_ne hpq]
  exact h

theorem current_release (hcurrent : d.current? = some p) (hpq : p ≠ q) :
    (d.perform (.releaseProgram q)).current? = some p := by
  show (if d.current? = some q then none else d.current?) = some p
  rw [hcurrent, if_neg (fun h => hpq (Option.some.inj h))]

/-- A device that refuses a program is as it was before. -/
theorem compile_error {name reason : String} {source : ProgramSource}
    (h : Device.compile d name source = (.error reason, d')) : d' = d := by
  change d.compile name source = (.error reason, d') at h
  unfold compile at h
  split at h
  · exact (Prod.mk.inj h).2.symm
  · cases (Prod.mk.inj h).1

/-- A new program is live, and so are those that were. -/
theorem compile_ok {name : String} {source : ProgramSource}
    (h : Device.compile d name source = (.ok p, d')) : Steady d d' ∧ d'.IsLive p := by
  change d.compile name source = (.ok p, d') at h
  unfold compile at h
  split at h
  · cases (Prod.mk.inj h).1
  · obtain ⟨hp, rfl⟩ := Prod.mk.inj h
    obtain rfl := Except.ok.inj hp
    refine ⟨⟨fun q hq => ?_, rfl⟩, ?_⟩
    · show (Ordered.get? q (d.programs ++ _)).isSome
      rw [Ordered.get?_append, Option.isSome_or, Bool.or_eq_true]
      exact .inl hq
    · show (Ordered.get? _ (d.programs ++ _)).isSome
      rw [Ordered.get?_append, Option.isSome_or, Bool.or_eq_true]
      exact .inr (by simp [Ordered.get?])

end Headless

end MaterialViewer
