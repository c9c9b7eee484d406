import MaterialViewer.Proofs.Device.ProgramCache
import MaterialViewer.Rendering.Renderer

/-!
# Proofs: renderers

What a renderer does to its device while a material is drawn: commands of a given set and uploads,
and no change of the programs in its cache. Only acquiring and purging programs changes the cache.
-/

namespace MaterialViewer.Renderer

section DrivenBy

variable {δ : Type} [Device δ] {P Q : Command → Prop} {r r₁ r₂ : Renderer δ}

/-- The device of the renderer is driven by commands in `P`, and its cache keeps its programs. -/
structure DrivenBy (P : Command → Prop) (r r' : Renderer δ) : Prop where
  device : Driven P r.device r'.device
  programs : r'.programs = r.programs

theorem DrivenBy.refl (r : Renderer δ) : DrivenBy P r r := ⟨.refl, rfl⟩

theorem DrivenBy.trans (h : DrivenBy P r r₁) (h' : DrivenBy P r₁ r₂) : DrivenBy P r r₂ :=
  ⟨h.device.trans h'.device, h'.programs.trans h.programs⟩

theorem DrivenBy.mono (h : DrivenBy P r r₁) (hPQ : ∀ c, P c → Q c) : DrivenBy Q r r₁ :=
  ⟨h.device.mono hPQ, h.programs⟩

theorem perform_drivenBy (r : Renderer δ) {c : Command} (hc : P c) : DrivenBy P r (r.perform c) :=
  ⟨.command .refl hc, rfl⟩

theorem foldl_drivenBy {α : Type} {f : Renderer δ → α → Renderer δ} (xs : List α)
    (hf : ∀ x ∈ xs, ∀ r, DrivenBy P r (f r x)) (r : Renderer δ) :
    DrivenBy P r (xs.foldl f r) := by
  induction xs generalizing r with
  | nil => exact .refl r
  | cons x rest ih =>
    have hhead : DrivenBy P r (f r x) := hf x List.mem_cons_self r
    exact hhead.trans (ih (fun y hy => hf y (List.mem_cons_of_mem _ hy)) _)

/-! ## Images -/

theorem image_drivenBy (r : Renderer δ) (files : FileTree) (path : Path) :
    DrivenBy P r (r.image files path).2 := by
  refine ⟨?_, rfl⟩
  show Driven P r.device (r.images.acquire files path r.device).2.2
  unfold ImageCache.acquire
  dsimp only
  cases Ordered.get? (ImageCache.key files path) r.images.entries with
  | some entry => exact .refl
  | none =>
    dsimp only
    cases r.images.load files (ImageCache.key files path) with
    | ok image => exact .upload .refl image
    | error e => exact .refl

theorem solidColor_drivenBy (r : Renderer δ) (color : Color) :
    DrivenBy P r (r.solidColor color).2 := by
  refine ⟨?_, rfl⟩
  show Driven P r.device (r.images.solidColor color r.device).2.2
  unfold ImageCache.solidColor
  cases Ordered.get? color r.images.solids with
  | some descriptor => exact .refl
  | none => exact .upload .refl _

theorem imageOr_drivenBy (r : Renderer δ) (files : FileTree) (path? : Option Path)
    (fallback? : Option Color) : DrivenBy P r (r.imageOr files path? fallback?).2 := by
  have hfallback : ∀ r₁ : Renderer δ, DrivenBy P r r₁ → ∀ color,
      DrivenBy P r (r₁.solidColor color).2 :=
    fun r₁ h color => h.trans (solidColor_drivenBy r₁ color)
  unfold imageOr
  cases path? with
  | none =>
    cases fallback? with
    | none => exact .refl r
    | some color => exact hfallback r (.refl r) color
  | some path =>
    have himage : DrivenBy P r (r.image files path).2 := image_drivenBy r files path
    dsimp only
    cases (r.image files path).1.toOption with
    | some descriptor => exact himage
    | none =>
      cases fallback? with
      | none => exact himage
      | some color => exact hfallback _ himage color

theorem invalidate_drivenBy (r : Renderer δ) (files : FileTree) (path : Path)
    (hP : ∀ t, P (.releaseTexture t)) : DrivenBy P r (r.invalidate files path) := by
  refine ⟨?_, rfl⟩
  show Driven P r.device (r.images.invalidate files path r.device).2
  unfold ImageCache.invalidate
  dsimp only
  split
  · exact .command .refl (hP _)
  · exact .refl

/-! ## Programs -/

theorem program_eq {name : String} {source : ProgramSource}
    {result : Except CompileError CompiledProgram} (h : r.program name source = (result, r₁)) :
    r.programs.acquire name source r.device = (result, r₁.programs, r₁.device) ∧
      r₁.images = r.images := by
  unfold program at h
  generalize r.programs.acquire name source r.device = answer at h ⊢
  obtain ⟨hresult, hr⟩ := Prod.mk.inj h
  rw [← hresult, ← hr]
  exact ⟨rfl, rfl⟩

/-- Sources that the device compiles have a program. -/
theorem exists_program (r : Renderer δ) (name : String) (source : ProgramSource)
    (h : (Device.compile r.device name source).1.isOk = true) :
    ∃ p r', r.program name source = (.ok p, r') := by
  cases hprogram : r.program name source with
  | mk result r' =>
    cases result with
    | ok p => exact ⟨p, r', rfl⟩
    | error e =>
      obtain ⟨hacquire, -⟩ := program_eq hprogram
      obtain ⟨-, -, -, hcompile⟩ := ProgramCache.acquire_error hacquire
      rw [hcompile] at h
      cases h

/-- A program is taken from the cache, or the device is asked to compile it. -/
theorem program_device (r : Renderer δ) (name : String) (source : ProgramSource) :
    (r.program name source).2.device = r.device ∨
      (r.program name source).2.device = (Device.compile r.device name source).2 := by
  show (r.programs.acquire name source r.device).2.2 = r.device ∨
    (r.programs.acquire name source r.device).2.2 = _
  unfold ProgramCache.acquire
  cases r.programs.find? source with
  | some program => exact .inl rfl
  | none =>
    refine .inr ?_
    dsimp only
    obtain ⟨answer, device⟩ := Device.compile r.device name source
    cases answer <;> rfl

end DrivenBy

/-! ## On a headless device -/

/-- All programs in the cache are live on the device. -/
def AllLive (r : Renderer Headless) : Prop := r.programs.AllLive r.device

variable {r r' : Renderer Headless} {name : String} {source : ProgramSource}
  {program : CompiledProgram}

theorem DrivenBy.steady {P : Command → Prop} (h : DrivenBy P r r') (hP : ∀ c, P c → c.IsQuiet) :
    Headless.Steady r.device r'.device :=
  Headless.steady_of_driven hP h.device

theorem AllLive.drivenBy {P : Command → Prop} (hlive : r.AllLive) (h : DrivenBy P r r')
    (hP : ∀ c, P c → c.IsQuiet) : r'.AllLive := by
  unfold AllLive
  rw [h.programs]
  exact ProgramCache.AllLive.steady hlive (h.steady hP)

/-- A renderer whose device refuses a program is as it was before. -/
theorem program_error {e : CompileError} (h : r.program name source = (.error e, r')) :
    r' = r := by
  obtain ⟨hacquire, himages⟩ := program_eq h
  obtain ⟨hprograms, -, -, hcompile⟩ := ProgramCache.acquire_error hacquire
  have hdevice : r'.device = r.device := Headless.compile_error hcompile
  cases r'
  cases himages
  cases hprograms
  cases hdevice
  rfl

theorem program_allLive (hlive : r.AllLive) (h : r.program name source = (.ok program, r')) :
    r'.AllLive ∧ Headless.Steady r.device r'.device ∧ r'.device.IsLive program.id :=
  ProgramCache.AllLive.acquire hlive (program_eq h).1

end MaterialViewer.Renderer
