import MaterialViewer.Proofs.Rendering.Material

/-!
# Proofs: drawing with images

All that drawing does with images is to give samplers of the binding what they are asked to show: the
picture of a file that was looked up for the binding, or else a color. The files that were looked up
stay, and new ones are what the search path leads to at that time.
-/

namespace MaterialViewer

/-- The command neither puts a texture on a unit nor gives one up, and tells no sampler its unit. -/
def Command.IsPlain : Command → Prop
  | .bindTexture .. | .releaseTexture _ | .setUniform _ _ (.sampler _) => False
  | _ => True

theorem Command.isPlain_setUniform {p : ProgramId} {name : String} {value : UniformValue}
    (h : ∀ unit, value ≠ .sampler unit) : (Command.setUniform p name value).IsPlain := by
  cases value with
  | sampler unit => exact (h unit rfl).elim
  | _ => trivial

/-- Samplers with the path whose picture each is to show, and the color without one. -/
abbrev Requests := String → Option Path → Option Color → Prop

/-- The second renderer comes about from the first by plain commands, and by giving samplers of the
binding what they are asked to show. -/
inductive Renderer.Draws {δ : Type} [Device δ] (files : FileTree) (b : ShaderBinding)
    (asks : Requests) (r : Renderer δ) : Renderer δ → Prop
  | refl : Draws files b asks r r
  | command {r₁ : Renderer δ} {c : Command} (h : Draws files b asks r r₁) (hc : c.IsPlain) :
      Draws files b asks r (r₁.perform c)
  | sampler {r₁ : Renderer δ} {b₁ : ShaderBinding} {uniform : String} {path? : Option Path}
      {fallback? : Option Color} (h : Draws files b asks r r₁) (halike : b.Alike b₁)
      (hasks : asks uniform path? fallback?) :
      Draws files b asks r (b₁.bindTexture files uniform path? fallback? r₁).2

namespace Renderer

variable {δ : Type} [Device δ] {files : FileTree} {b b' : ShaderBinding} {asks asks' : Requests}
  {r r₁ r₂ : Renderer δ}

theorem Draws.trans (h : Draws files b asks r r₁) (h' : Draws files b asks r₁ r₂) :
    Draws files b asks r r₂ := by
  induction h' with
  | refl => exact h
  | command _ hc ih => exact ih.command hc
  | sampler _ halike hasks ih => exact ih.sampler halike hasks

theorem Draws.mono (h : Draws files b asks r r₁)
    (hasks : ∀ uniform path? fallback?, asks uniform path? fallback? →
      asks' uniform path? fallback?) : Draws files b asks' r r₁ := by
  induction h with
  | refl => exact .refl
  | command _ hc ih => exact ih.command hc
  | sampler _ halike hrequest ih => exact ih.sampler halike (hasks _ _ _ hrequest)

theorem Draws.alike (h : Draws files b' asks r r₁) (hb : b.Alike b') : Draws files b asks r r₁ := by
  induction h with
  | refl => exact .refl
  | command _ hc ih => exact ih.command hc
  | sampler _ halike hasks ih => exact ih.sampler (hb.trans halike) hasks

theorem Draws.driven (h : Draws files b asks r r₁) : Driven (fun _ => True) r.device r₁.device := by
  induction h with
  | refl => exact .refl
  | command _ _ ih => exact ih.command trivial
  | @sampler r₁ b₁ uniform path? fallback? _ _ _ ih =>
    exact ih.trans ((b₁.bindTexture_drivenBy files uniform path? fallback? r₁).device.mono
      fun _ _ => trivial)

theorem foldl_draws {α : Type} {f : Renderer δ → α → Renderer δ} (xs : List α)
    (hf : ∀ x ∈ xs, ∀ r, Draws files b asks r (f r x)) (r : Renderer δ) :
    Draws files b asks r (xs.foldl f r) := by
  induction xs generalizing r with
  | nil => exact .refl
  | cons x rest ih =>
    exact (hf x List.mem_cons_self r).trans
      (ih (fun y hy => hf y (List.mem_cons_of_mem _ hy)) _)

end Renderer

namespace ShaderBinding

open Renderer (Draws)

variable {b b₁ b₂ : ShaderBinding} {files : FileTree} {search : SearchPath}

/-- A file was looked up for the binding. -/
def HasFound (b : ShaderBinding) (path : Path) : Prop := path ∈ b.found.map (·.2)

/-- The second binding differs from the first in files that were looked up in addition, each of them
where the search path leads. -/
structure Finds (files : FileTree) (search : SearchPath) (b b' : ShaderBinding) : Prop where
  alike : Alike b b'
  found : ∃ more, b'.found = b.found ++ more ∧
    ∀ entry ∈ more, entry.2 = search.find files ⟨entry.1⟩

theorem Finds.refl (b : ShaderBinding) : Finds files search b b :=
  ⟨.refl b, [], (List.append_nil _).symm, fun _ hentry => nomatch hentry⟩

theorem Finds.trans (h : Finds files search b b₁) (h' : Finds files search b₁ b₂) :
    Finds files search b b₂ := by
  obtain ⟨halike, more, hfound, hmore⟩ := h
  obtain ⟨halike', more', hfound', hmore'⟩ := h'
  refine ⟨halike.trans halike', more ++ more', ?_, fun entry hentry => ?_⟩
  · rw [hfound', hfound, List.append_assoc]
  · rcases List.mem_append.1 hentry with hentry | hentry
    · exact hmore entry hentry
    · exact hmore' entry hentry

theorem Finds.hasFound (h : Finds files search b b₁) {path : Path} (hpath : b.HasFound path) :
    b₁.HasFound path := by
  obtain ⟨more, hfound, -⟩ := h.found
  unfold HasFound
  rw [hfound, List.map_append]
  exact List.mem_append_left _ hpath

theorem hasFound_of_found? {name : String} {path : Path} (h : b.found? name = some path) :
    b.HasFound path :=
  List.mem_map.2 ⟨_, Ordered.mem_of_get? h, rfl⟩

/-! ## Looking files up -/

theorem lookUp_finds (b : ShaderBinding) (files : FileTree) (search : SearchPath) (name : String) :
    Finds files search b (b.lookUp files search name) := by
  unfold lookUp
  split
  · exact .refl b
  · refine ⟨⟨rfl, rfl, rfl⟩, [(name, search.find files ⟨name⟩)], rfl, fun entry hentry => ?_⟩
    rw [List.mem_singleton.1 hentry]

/-- A name that was looked up before keeps its file, another one gets the file that it leads to. -/
theorem found?_lookUp (b : ShaderBinding) (files : FileTree) (search : SearchPath)
    (name other : String) : (b.lookUp files search name).found? other =
      if name = other then some ((b.found? name).getD (search.find files ⟨name⟩))
      else b.found? other := by
  unfold lookUp found?
  cases hknown : Ordered.get? name b.found with
  | some path =>
    rw [Option.isSome_some, if_pos rfl, Option.getD_some]
    split
    · rename_i heq
      rw [← heq, hknown]
    · rfl
  | none =>
    rw [Option.isSome_none, if_neg Bool.false_ne_true, Ordered.get?_append, Option.getD_none]
    split
    · rename_i heq
      rw [← heq, hknown, Ordered.get?, if_pos rfl, Option.none_or]
    · rename_i hne
      rw [Ordered.get?, if_neg hne, Ordered.get?, Option.or_none]

/-- Look files up for several names. -/
def lookUpAll (b : ShaderBinding) (files : FileTree) (search : SearchPath) (names : List String) :
    ShaderBinding :=
  names.foldl (fun b name => b.lookUp files search name) b

theorem lookUpAll_finds (b : ShaderBinding) (files : FileTree) (search : SearchPath)
    (names : List String) : Finds files search b (b.lookUpAll files search names) := by
  induction names generalizing b with
  | nil => exact .refl b
  | cons name rest ih => exact (b.lookUp_finds files search name).trans (ih _)

theorem found?_lookUpAll (b : ShaderBinding) (files : FileTree) (search : SearchPath)
    {names : List String} {name : String} (h : name ∈ names) :
    (b.lookUpAll files search names).found? name =
      some ((b.found? name).getD (search.find files ⟨name⟩)) := by
  -- once it has a file, a name keeps it
  have hkeep : ∀ (names : List String) (b : ShaderBinding) (path : Path),
      b.found? name = some path → (b.lookUpAll files search names).found? name = some path := by
    intro names
    induction names with
    | nil => exact fun _ _ hpath => hpath
    | cons other rest ih =>
      intro b path hpath
      refine ih _ path ?_
      rw [found?_lookUp]
      split
      · rename_i heq
        rw [heq, hpath, Option.getD_some]
      · exact hpath
  induction names generalizing b with
  | nil => cases h
  | cons other rest ih =>
    show ((b.lookUp files search other).lookUpAll files search rest).found? name = _
    by_cases heq : other = name
    · refine hkeep rest _ _ ?_
      rw [found?_lookUp, if_pos heq, heq]
    · rw [ih (b.lookUp files search other) ((List.mem_cons.1 h).resolve_left (Ne.symm heq)),
        found?_lookUp, if_neg heq]

theorem lookUpImages_finds (b : ShaderBinding) (files : FileTree) (search : SearchPath)
    (tile? : Option String) : Finds files search b (b.lookUpImages files search tile?) :=
  b.lookUpAll_finds files search _

/-! ## What samplers are asked to show -/

/-- The file that was looked up for a name; no file for no name. -/
inductive Leads (b : ShaderBinding) : Option String → Option Path → Prop
  | none : b.Leads none none
  | some {name : String} {path : Path} (h : b.found? name = some path) :
      b.Leads (some name) (some path)

/-- The name of the file of a map, if it is used. -/
def mapName? (indirect : Bool) (name : String) : Option String :=
  if indirect && decide (name ≠ "") then some name else none

/-- What the samplers of the binding are asked to show: images their files, or else the fallback
color, and maps of the environment theirs, or else black. -/
inductive Asks (b : ShaderBinding) (tile? : Option String) (fallback? : Option Color)
    (environment : EnvironmentLighting) : Requests
  | image {v : ShaderVariable} {path? : Option Path} (hv : v ∈ b.shader.imageUniforms)
      (hpath : b.Leads (imageName? tile? v) path?) :
      b.Asks tile? fallback? environment v.name path? fallback?
  | radiance {path? : Option Path} (hunit : (Ordered.get? Uniforms.envRadiance b.units).isSome)
      (hpath : b.Leads (mapName? environment.indirect environment.radiance) path?) :
      b.Asks tile? fallback? environment Uniforms.envRadiance path? (some .opaqueBlack)
  | irradiance {path? : Option Path}
      (hunit : (Ordered.get? Uniforms.envIrradiance b.units).isSome)
      (hpath : b.Leads (mapName? environment.indirect environment.irradiance) path?) :
      b.Asks tile? fallback? environment Uniforms.envIrradiance path? (some .opaqueBlack)

theorem Finds.found? (h : Finds files search b b₁) {name : String} {path : Path}
    (hpath : b.found? name = some path) : b₁.found? name = some path := by
  obtain ⟨more, hfound, -⟩ := h.found
  unfold ShaderBinding.found? at hpath ⊢
  rw [hfound, Ordered.get?_append, hpath, Option.some_or]

theorem Leads.finds {name? : Option String} {path? : Option Path} (h : b.Leads name? path?)
    (hfinds : Finds files search b b₁) : b₁.Leads name? path? := by
  cases h with
  | none => exact .none
  | some hpath => exact .some (hfinds.found? hpath)

theorem Leads.hasFound {name? : Option String} {path? : Option Path} (h : b.Leads name? path?) :
    ∀ path ∈ path?, b.HasFound path := by
  cases h with
  | none => exact nofun
  | some hpath =>
    intro path hmem
    exact hasFound_of_found? (Option.some.inj hmem ▸ hpath)

theorem Asks.finds {tile? : Option String} {fallback? color? : Option Color}
    {environment : EnvironmentLighting} {uniform : String} {path? : Option Path}
    (h : b.Asks tile? fallback? environment uniform path? color?)
    (hfinds : Finds files search b b₁) : b₁.Asks tile? fallback? environment uniform path? color? := by
  cases h with
  | image hv hpath => exact .image (hfinds.alike.shader ▸ hv) (hpath.finds hfinds)
  | radiance hunit hpath => exact .radiance (hfinds.alike.units ▸ hunit) (hpath.finds hfinds)
  | irradiance hunit hpath => exact .irradiance (hfinds.alike.units ▸ hunit) (hpath.finds hfinds)

theorem Asks.hasFound {tile? : Option String} {fallback? color? : Option Color}
    {environment : EnvironmentLighting} {uniform : String} {path? : Option Path}
    (h : b.Asks tile? fallback? environment uniform path? color?) :
    ∀ path ∈ path?, b.HasFound path := by
  cases h with
  | image _ hpath | radiance _ hpath | irradiance _ hpath => exact hpath.hasFound

/-- The files of all images are looked up. -/
theorem leads_lookUpImages (b : ShaderBinding) (files : FileTree) (search : SearchPath)
    (tile? : Option String) {v : ShaderVariable} (hv : v ∈ b.shader.imageUniforms) :
    (b.lookUpImages files search tile?).Leads (imageName? tile? v)
      ((imageName? tile? v).bind (b.lookUpImages files search tile?).found?) := by
  cases hname : imageName? tile? v with
  | none => exact .none
  | some name =>
    have hfound := b.found?_lookUpAll files search
      (List.mem_filterMap.2 ⟨v, hv, hname⟩ :
        name ∈ b.shader.imageUniforms.filterMap (imageName? tile?))
    change (b.lookUpImages files search tile?).found? name = _ at hfound
    rw [Option.bind_some, hfound]
    exact .some hfound

theorem Leads.unique {name? : Option String} {path? other? : Option Path} (h : b.Leads name? path?)
    (h' : b.Leads name? other?) : path? = other? := by
  cases h with
  | none =>
    cases h'
    rfl
  | some hpath =>
    cases h' with
    | some hother => exact hpath.symm.trans hother

/-- The file whose picture is to be shown for an image: the one that was found before, or else the one
that the search path leads to. -/
def imagePath? (b : ShaderBinding) (files : FileTree) (search : SearchPath) (tile? : Option String)
    (v : ShaderVariable) : Option Path :=
  (imageName? tile? v).map fun name => (b.found? name).getD (search.find files ⟨name⟩)

/-- The file that is looked up for an image. -/
theorem found?_lookUpImages (b : ShaderBinding) (files : FileTree) (search : SearchPath)
    (tile? : Option String) {v : ShaderVariable} (hv : v ∈ b.shader.imageUniforms) :
    (imageName? tile? v).bind (b.lookUpImages files search tile?).found? =
      b.imagePath? files search tile? v := by
  unfold imagePath?
  cases hname : imageName? tile? v with
  | none => rfl
  | some name =>
    exact b.found?_lookUpAll files search (List.mem_filterMap.2 ⟨v, hv, hname⟩ :
      name ∈ b.shader.imageUniforms.filterMap (imageName? tile?))

theorem asks_lookUpImages (b : ShaderBinding) (files : FileTree) (search : SearchPath)
    (tile? : Option String) (fallback? : Option Color) (environment : EnvironmentLighting)
    {v : ShaderVariable} (hv : v ∈ (b.lookUpImages files search tile?).shader.imageUniforms) :
    (b.lookUpImages files search tile?).Asks tile? fallback? environment v.name
      ((imageName? tile? v).bind (b.lookUpImages files search tile?).found?) fallback? :=
  .image hv (b.leads_lookUpImages files search tile?
    ((b.lookUpImages_finds files search tile?).alike.shader ▸ hv))

/-! ## What is drawn -/

variable {δ : Type} [Device δ] {asks : Requests} (r : Renderer δ)

theorem set_draws {b₀ : ShaderBinding} (b : ShaderBinding) (name : String) {value : UniformValue}
    (hvalue : ∀ unit, value ≠ .sampler unit) : Draws files b₀ asks r (b.set name value r) := by
  unfold set
  split
  · exact .command .refl (Command.isPlain_setUniform hvalue)
  · exact .refl

theorem use_draws {b₀ : ShaderBinding} (b : ShaderBinding) : Draws files b₀ asks r (b.use r) :=
  .command (.command .refl trivial) trivial

theorem bindView_draws {b₀ : ShaderBinding} (b : ShaderBinding) (world view projection : Matrix4) :
    Draws files b₀ asks r (b.bindView world view projection r) :=
  (((set_draws r b _ (by nofun)).trans (set_draws _ b _ (by nofun))).trans (set_draws _ b _ (by nofun))).trans
    (set_draws _ b _ (by nofun))

theorem bindUniformImage_draws (b : ShaderBinding) (files : FileTree) (tile? : Option String)
    (fallback? : Option Color) (state : Nat × Renderer δ) (v : ShaderVariable)
    (hasks : asks v.name ((imageName? tile? v).bind b.found?) fallback?) :
    Draws files b asks state.2 (b.bindUniformImage files tile? fallback? state v).2 :=
  .sampler .refl (.refl b) hasks

theorem foldl_bindUniformImage_draws (b : ShaderBinding) (files : FileTree) (tile? : Option String)
    (fallback? : Option Color) (vs : List ShaderVariable)
    (hasks : ∀ v ∈ vs, asks v.name ((imageName? tile? v).bind b.found?) fallback?)
    (state : Nat × Renderer δ) :
    Draws files b asks state.2 (vs.foldl (b.bindUniformImage files tile? fallback?) state).2 := by
  induction vs generalizing state with
  | nil => exact .refl
  | cons v rest ih =>
    exact (bindUniformImage_draws b files tile? fallback? state v (hasks v List.mem_cons_self)).trans
      (ih (fun w hw => hasks w (List.mem_cons_of_mem _ hw)) _)

theorem bindImages_draws (b : ShaderBinding) (files : FileTree) (search : SearchPath)
    (tile? : Option String) (fallback? : Option Color) (environment : EnvironmentLighting) :
    Finds files search b (b.bindImages files search tile? fallback? r).2.1 ∧
      Draws files b ((b.bindImages files search tile? fallback? r).2.1.Asks tile? fallback?
        environment) r (b.bindImages files search tile? fallback? r).2.2 := by
  have hfinds := b.lookUpImages_finds files search tile?
  refine ⟨hfinds, ?_⟩
  exact (foldl_bindUniformImage_draws _ files tile? fallback? _
    (fun _ => b.asks_lookUpImages files search tile? fallback? environment) (0, r)).alike
      hfinds.alike

/-- Among the images that are bound is that of each uniform. -/
theorem bindImages_passes (b : ShaderBinding) (files : FileTree) (search : SearchPath)
    (tile? : Option String) (fallback? : Option Color) (environment : EnvironmentLighting)
    {v : ShaderVariable} (hv : v ∈ b.shader.imageUniforms) :
    let b' := b.lookUpImages files search tile?
    ∃ r₁, Draws files b (b'.Asks tile? fallback? environment) r r₁ ∧
      Draws files b (b'.Asks tile? fallback? environment)
        (b'.bindTexture files v.name ((imageName? tile? v).bind b'.found?) fallback? r₁).2
        (b.bindImages files search tile? fallback? r).2.2 := by
  intro b'
  have hfinds : Finds files search b b' := b.lookUpImages_finds files search tile?
  have hasks : ∀ w ∈ b'.shader.imageUniforms, b'.Asks tile? fallback? environment w.name
      ((imageName? tile? w).bind b'.found?) fallback? :=
    fun w => b.asks_lookUpImages files search tile? fallback? environment
  obtain ⟨front, back, hsplit⟩ := List.append_of_mem (hfinds.alike.shader.symm ▸ hv)
  rw [hsplit] at hasks
  refine ⟨(front.foldl (b'.bindUniformImage files tile? fallback?) (0, r)).2, ?_, ?_⟩
  · exact (foldl_bindUniformImage_draws b' files tile? fallback? front
      (fun w hw => hasks w (List.mem_append_left _ hw)) (0, r)).alike hfinds.alike
  · have hrest := foldl_bindUniformImage_draws b' files tile? fallback? back
      (fun w hw => hasks w (List.mem_append_right _ (List.mem_cons_of_mem _ hw)))
      (b'.bindUniformImage files tile? fallback?
        (front.foldl (b'.bindUniformImage files tile? fallback?) (0, r)) v)
    rw [← List.foldl_cons, ← List.foldl_append, ← hsplit] at hrest
    exact hrest.alike hfinds.alike

theorem bindMap_draws (b : ShaderBinding) (files : FileTree) (search : SearchPath)
    (indirect : Bool) (uniform name : String) (asks : Requests)
    (hasks : ∀ path?, (Ordered.get? uniform b.units).isSome →
      (b.bindMap files search indirect uniform name r).2.1.Leads (mapName? indirect name) path? →
      asks uniform path? (some .opaqueBlack)) :
    Finds files search b (b.bindMap files search indirect uniform name r).2.1 ∧
      Draws files b asks r (b.bindMap files search indirect uniform name r).2.2 := by
  unfold bindMap at hasks ⊢
  unfold mapName? at hasks
  split
  · exact ⟨.refl b, .refl⟩
  · rename_i hunit
    rw [if_neg hunit] at hasks
    dsimp only at hasks ⊢
    have hsome : (Ordered.get? uniform b.units).isSome :=
      Option.isSome_iff_ne_none.2 (by simpa using hunit)
    by_cases hused : (indirect && decide (name ≠ "")) = true
    · simp only [if_pos hused] at hasks ⊢
      have hfound := b.found?_lookUp files search name name
      rw [if_pos rfl] at hfound
      refine ⟨lookUp_finds b files search name,
        .sampler .refl (lookUp_alike b files search name) (hasks _ hsome ?_)⟩
      rw [hfound]
      exact .some hfound
    · simp only [if_neg hused] at hasks ⊢
      exact ⟨.refl b, .sampler .refl (.refl b) (hasks _ hsome .none)⟩

theorem bindEnvironment_draws (b : ShaderBinding) (files : FileTree) (search : SearchPath)
    (tile? : Option String) (fallback? : Option Color) (environment : EnvironmentLighting) :
    Finds files search b (b.bindEnvironment files search environment r).1 ∧
      Draws files b ((b.bindEnvironment files search environment r).1.Asks tile? fallback?
        environment) r (b.bindEnvironment files search environment r).2 := by
  unfold bindEnvironment
  dsimp only
  have hradiance := bindMap_draws (b.set Uniforms.envSamples (.count environment.samples) r) b files
    search environment.indirect Uniforms.envRadiance environment.radiance
  generalize b.bindMap files search environment.indirect Uniforms.envRadiance environment.radiance
    (b.set Uniforms.envSamples (.count environment.samples) r) = answer at hradiance
  obtain ⟨image?, b₁, r₁⟩ := answer
  have hfinds := (hradiance (fun _ _ _ => True) fun _ _ _ => trivial).1
  have hrest : ∀ r₂, (∀ asks, Draws files b asks r₁ r₂) →
      let answer := b₁.bindMap files search environment.indirect Uniforms.envIrradiance
        environment.irradiance r₂
      Finds files search b answer.2.1 ∧
        Draws files b (answer.2.1.Asks tile? fallback? environment) r answer.2.2 := by
    intro r₂ hmips answer
    have hirradiance := bindMap_draws r₂ b₁ files search environment.indirect
      Uniforms.envIrradiance environment.irradiance
    have hfinds' : Finds files search b₁ answer.2.1 :=
      (hirradiance (fun _ _ _ => True) fun _ _ _ => trivial).1
    have hunits := (hfinds.trans hfinds').alike.units
    have hfirst := (hradiance (answer.2.1.Asks tile? fallback? environment) fun _ hunit hpath =>
      .radiance (hunits ▸ hunit) (hpath.finds hfinds')).2
    have hsecond := (hirradiance (answer.2.1.Asks tile? fallback? environment) fun _ hunit hpath =>
      .irradiance (hfinds'.alike.units ▸ hunit) hpath).2
    refine ⟨hfinds.trans hfinds', ?_⟩
    exact (((set_draws r b _ (by nofun)).trans hfirst).trans (hmips _)).trans
      (hsecond.alike hfinds.alike)
  cases image? with
  | none => exact hrest r₁ fun _ => .refl
  | some image => exact hrest _ fun _ => set_draws r₁ b₁ _ (by nofun)

theorem ofValue?_ne_sampler {value : Value} {u : UniformValue}
    (h : UniformValue.ofValue? value = some u) (unit : Nat) : u ≠ .sampler unit := by
  cases value with
  | boolean b => exact Option.some.inj h ▸ nofun
  | integer i => exact Option.some.inj h ▸ nofun
  | float x => exact Option.some.inj h ▸ nofun
  | tuple shape components _ =>
    obtain rfl := Option.some.inj h
    split <;> exact nofun
  | _ => cases h

theorem bindRig_draws {b₀ : ShaderBinding} (b : ShaderBinding) (rig : LightRig) (direct : Bool) :
    Draws files b₀ asks r (b.bindRig rig direct r) := by
  refine (set_draws r b _ (by nofun)).trans (Renderer.foldl_draws _ (fun light _ r₁ => ?_) _)
  refine Renderer.foldl_draws _ (fun field hfield r₂ => ?_) _
  have hvalue : ∀ unit, field.2 ≠ .sampler unit := by
    rcases List.mem_cons.1 hfield with rfl | hfield
    · exact nofun
    · obtain ⟨input, -, hinput⟩ := List.mem_filterMap.1 hfield
      obtain ⟨u, hu, rfl⟩ := Option.map_eq_some_iff.1 hinput
      exact ofValue?_ne_sampler hu
  unfold setLightField
  split
  · exact .command .refl (Command.isPlain_setUniform hvalue)
  · exact .refl

theorem bindLights_draws (b : ShaderBinding) (files : FileTree) (search : SearchPath)
    (tile? : Option String) (fallback? : Option Color) (rig : LightRig)
    (environment : EnvironmentLighting) :
    Finds files search b (b.bindLights files search rig environment r).1 ∧
      Draws files b ((b.bindLights files search rig environment r).1.Asks tile? fallback?
        environment) r (b.bindLights files search rig environment r).2 := by
  obtain ⟨hfinds, hdraws⟩ := bindEnvironment_draws r b files search tile? fallback? environment
  exact ⟨hfinds, hdraws.trans (bindRig_draws _ _ rig environment.direct)⟩

theorem bindMesh_draws {b₀ : ShaderBinding} (b : ShaderBinding) (mesh : Mesh) :
    Draws files b₀ asks r (b.bindMesh mesh r).2 :=
  Renderer.foldl_draws _ (fun _ _ _ => .command .refl (by trivial)) r

theorem drawPartitions_draws {b₀ : ShaderBinding} (b : ShaderBinding) (ps : List MeshPartition) :
    Draws files b₀ asks r (ps.foldl (fun r p => b.drawPartition p r) r) :=
  Renderer.foldl_draws _ (fun _ _ _ => .command (.command .refl (by trivial)) (by trivial)) r

end ShaderBinding

end MaterialViewer
