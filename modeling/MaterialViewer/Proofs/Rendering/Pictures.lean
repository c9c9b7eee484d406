import MaterialViewer.Proofs.Files.Location
import MaterialViewer.Proofs.Image.Cache
import MaterialViewer.Proofs.Rendering.Drawing

/-!
# Proofs: pictures on the device

Which textures drawing puts on the units, over a device that keeps a trace. From some moment on the
files stay as they are. What the cache had then may be old; all that it comes to hold is told by the
files, and was uploaded since. So a sampler gets the picture of its file as it is, uploaded since, or
what is old of that file, or its color.

If nothing is old, it gets the picture of its file as it is, or its color.
-/

namespace MaterialViewer

/-- The picture in a file. -/
def FileTree.picture? (files : FileTree) (path : Path) : Option Image :=
  (ImageCache.load {} files path).toOption

/-- What is shown for a path: the picture in the file, or else a color. -/
def FileTree.shown? (files : FileTree) (path? : Option Path) (fallback? : Option Color) :
    Option Image :=
  (path?.bind fun path => files.picture? (ImageCache.key files path)).or
    (fallback?.map Image.solid)

/-- What a cache holds for a key is told by the files: the picture, among the uploads, or that there
is none. -/
def Told (files : FileTree) (uploads : List Use) (key : Path) :
    Except ImageError ImageDescriptor → Prop
  | .ok d => ∃ image, files.picture? key = some image ∧ .uploaded image d.texture ∈ uploads
  | .error _ => files.picture? key = none

/-- What a cache holds for a key, where it is not told by the files. -/
abbrev OldEntries := Path → Except ImageError ImageDescriptor → Prop

variable {δ : Type} [Device δ] {files : FileTree} {start : Nat} {old : OldEntries}

/-- Files are read by the standard loader, and the textures of colors have their colors. -/
structure Renderer.Standard (r : Renderer (Traced δ)) : Prop where
  loaders : r.images.loaders = [.standard]
  solids : ∀ color d, Ordered.get? color r.images.solids = some d →
    .uploaded (Image.solid color) d.texture ∈ r.device.uses

/-- After the first `start` uses of the device, everything but old entries comes from the files as
they are. -/
structure Renderer.Current (files : FileTree) (start : Nat) (old : OldEntries)
    (r : Renderer (Traced δ)) : Prop extends r.Standard where
  started : start ≤ r.device.uses.length
  entries : ∀ key entry, Ordered.get? key r.images.entries = some entry →
    old key entry ∨ Told files (r.device.uses.drop start) key entry

/-- The texture that a sampler is supplied with has the picture of its path, uploaded after the first
`start` uses, or is old, or has its color if there is no picture; there is none without a color. -/
inductive Supplied (files : FileTree) (start : Nat) (old : OldEntries) (uses : List Use)
    (path? : Option Path) (fallback? : Option Color) : Option TextureId → Prop
  | image {path : Path} {d : ImageDescriptor} (hpath : path ∈ path?)
      (hentry : old (ImageCache.key files path) (.ok d) ∨
        Told files (uses.drop start) (ImageCache.key files path) (.ok d)) :
      Supplied files start old uses path? fallback? (some d.texture)
  | color {color : Color} {d : ImageDescriptor}
      (hmissing : ∀ path ∈ path?, (∃ e, old (ImageCache.key files path) (.error e)) ∨
        files.picture? (ImageCache.key files path) = none)
      (hcolor : color ∈ fallback?) (hsolid : .uploaded (Image.solid color) d.texture ∈ uses) :
      Supplied files start old uses path? fallback? (some d.texture)
  | nothing
      (hmissing : ∀ path ∈ path?, (∃ e, old (ImageCache.key files path) (.error e)) ∨
        files.picture? (ImageCache.key files path) = none)
      (hcolor : fallback? = none) :
      Supplied files start old uses path? fallback? none

theorem Told.mono {uploads more : List Use} {key : Path}
    {entry : Except ImageError ImageDescriptor} (h : Told files uploads key entry)
    (hsub : ∀ use ∈ uploads, use ∈ more) : Told files more key entry := by
  cases entry with
  | error e => exact h
  | ok d =>
    obtain ⟨image, hpicture, hupload⟩ := h
    exact ⟨image, hpicture, hsub _ hupload⟩

/-- What was told by the files is told by others with the same picture. -/
theorem Told.congr {files' : FileTree} {uploads : List Use} {key : Path}
    {entry : Except ImageError ImageDescriptor} (h : Told files uploads key entry)
    (hsame : files'.picture? key = files.picture? key) : Told files' uploads key entry := by
  cases entry with
  | error e => exact hsame.trans h
  | ok d =>
    obtain ⟨image, hpicture, hupload⟩ := h
    exact ⟨image, hsame.trans hpicture, hupload⟩

theorem Supplied.mono {uses more : List Use} {path? : Option Path} {fallback? : Option Color}
    {texture? : Option TextureId} (h : Supplied files start old uses path? fallback? texture?)
    (hsub : ∀ use ∈ uses, use ∈ more) (hrecent : ∀ use ∈ uses.drop start, use ∈ more.drop start) :
    Supplied files start old more path? fallback? texture? := by
  cases h with
  | image hpath hentry => exact .image hpath (hentry.imp_right (·.mono hrecent))
  | color hmissing hcolor hsolid => exact .color hmissing hcolor (hsub _ hsolid)
  | nothing hmissing hcolor => exact .nothing hmissing hcolor

/-- If the old entries are told by the files as well, a sampler is supplied with what is to be
shown. -/
theorem Supplied.shows {uses : List Use} {path? : Option Path} {fallback? : Option Color}
    {texture? : Option TextureId} (h : Supplied files start old uses path? fallback? texture?)
    (hold : ∀ key entry, old key entry → Told files uses key entry) :
    (texture? = none → files.shown? path? fallback? = none) ∧
      ∀ t ∈ texture?,
        ∃ image, files.shown? path? fallback? = some image ∧ .uploaded image t ∈ uses := by
  have hnone : (∀ path ∈ path?, (∃ e, old (ImageCache.key files path) (.error e)) ∨
      files.picture? (ImageCache.key files path) = none) →
      files.shown? path? fallback? = fallback?.map Image.solid := by
    intro hmissing
    unfold FileTree.shown?
    cases path? with
    | none => rfl
    | some path =>
      have hpicture : files.picture? (ImageCache.key files path) = none := by
        rcases hmissing path rfl with ⟨e, hentry⟩ | hpicture
        · exact hold _ _ hentry
        · exact hpicture
      rw [Option.bind_some, hpicture, Option.none_or]
  cases h with
  | @image path d hpath hentry =>
    refine ⟨nofun, fun t ht => ?_⟩
    obtain rfl := Option.mem_some.1 ht
    obtain rfl := Option.mem_def.1 hpath
    obtain ⟨image, hpicture, hupload⟩ : Told files uses (ImageCache.key files path) (.ok d) := by
      rcases hentry with hentry | htold
      · exact hold _ _ hentry
      · exact htold.mono fun _ => List.mem_of_mem_drop
    refine ⟨image, ?_, hupload⟩
    unfold FileTree.shown?
    rw [Option.bind_some, hpicture, Option.some_or]
  | color hmissing hcolor hsolid =>
    refine ⟨nofun, fun t ht => ?_⟩
    obtain rfl := Option.mem_some.1 ht
    obtain rfl := Option.mem_def.1 hcolor
    exact ⟨_, hnone hmissing, hsolid⟩
  | nothing hmissing hcolor =>
    rw [hnone hmissing, hcolor]
    exact ⟨fun _ => rfl, nofun⟩

/-- A use that puts a texture on a unit supplies a sampler of the binding with what it is asked to
show, and one that tells a sampler its unit keeps to the units of the binding. -/
structure ShaderBinding.Supplies (b : ShaderBinding) (files : FileTree) (start : Nat)
    (old : OldEntries) (asks : Requests) (uses : List Use) (use : Use) : Prop where
  texture : ∀ t unit sampling, use = .performed (.bindTexture t unit sampling) →
    ∃ uniform path? fallback?, Ordered.get? uniform b.units = some unit ∧
      asks uniform path? fallback? ∧ Supplied files start old uses path? fallback? (some t)
  sampler : ∀ p name unit, use = .performed (.setUniform p name (.sampler unit)) →
    p = b.program.id ∧ Ordered.get? name b.units = some unit

theorem ShaderBinding.Supplies.mono {b : ShaderBinding} {asks : Requests} {uses more : List Use}
    {use : Use} (h : b.Supplies files start old asks uses use) (hsub : ∀ use ∈ uses, use ∈ more)
    (hrecent : ∀ use ∈ uses.drop start, use ∈ more.drop start) :
    b.Supplies files start old asks more use := by
  refine ⟨fun t unit sampling huse => ?_, h.sampler⟩
  obtain ⟨uniform, path?, fallback?, hunit, hasks, hsupplied⟩ := h.texture t unit sampling huse
  exact ⟨uniform, path?, fallback?, hunit, hasks, hsupplied.mono hsub hrecent⟩

/-- When the content at one path changes, the pictures under other keys are the same. -/
theorem FileTree.ChangedOnlyAt.picture?_eq {files' : FileTree} {path other : Path}
    (h : files.ChangedOnlyAt files' path) (hproper : Path.IsProper files.workingDirectory)
    (htext : path.text ≠ "")
    (hne : ImageCache.key files other ≠ ImageCache.key files' path) :
    files'.picture? (ImageCache.key files other) = files.picture? (ImageCache.key files other) := by
  rw [ImageCache.key_eq, ImageCache.key_eq, h.workingDirectory, Path.normalize, Path.normalize,
    if_neg htext] at hne
  rw [ImageCache.key_eq, Path.normalize]
  unfold picture?
  split
  · -- the empty path names nothing
    rename_i hempty
    have hnone : ∀ t : FileTree, t.isFile other = false := by
      intro t
      unfold isFile resolve
      rw [if_pos hempty]
      rfl
    unfold ImageCache.load
    rw [hnone, hnone, if_neg Bool.false_ne_true, if_neg Bool.false_ne_true]
  · rename_i hnonempty
    rw [if_neg hnonempty] at hne
    refine congrArg Except.toOption (h.load_eq ?_ rfl)
    rw [(hproper.lexicalLocation other).lexicalLocation_ofLocation]
    exact fun heq => hne (congrArg Path.ofLocation heq)

namespace Renderer

variable {r r' : Renderer (Traced δ)}

omit [Device δ] in
/-- A step after which more uses were made: entries and colors are known or come from these, and
textures that are put on units have an origin. -/
theorem Current.step (h : r.Current files start old) (more : List Use)
    (huses : r'.device.uses = r.device.uses ++ more)
    (hloaders : r'.images.loaders = r.images.loaders)
    (hentries : ∀ key entry, Ordered.get? key r'.images.entries = some entry →
      Ordered.get? key r.images.entries = some entry ∨ Told files more key entry)
    (hsolids : ∀ color d, Ordered.get? color r'.images.solids = some d →
      Ordered.get? color r.images.solids = some d ∨
        .uploaded (Image.solid color) d.texture ∈ more) :
    r'.Current files start old := by
  have hrecent : r'.device.uses.drop start = r.device.uses.drop start ++ more := by
    rw [huses, List.drop_append_of_le_length h.started]
  have hsub : ∀ use ∈ r.device.uses, use ∈ r'.device.uses := fun use huse =>
    huses ▸ List.mem_append_left _ huse
  have hsubrecent : ∀ use ∈ r.device.uses.drop start, use ∈ r'.device.uses.drop start :=
    fun use huse => hrecent ▸ List.mem_append_left _ huse
  refine ⟨⟨hloaders.trans h.loaders, fun color d hsolid => ?_⟩, ?_, fun key entry hentry => ?_⟩
  · rcases hsolids color d hsolid with hknown | hnew
    · exact hsub _ (h.solids color d hknown)
    · exact huses ▸ List.mem_append_right _ hnew
  · rw [huses, List.length_append]
    exact Nat.le_add_right_of_le h.started
  · rcases hentries key entry hentry with hknown | htold
    · exact (h.entries key entry hknown).imp_right (·.mono hsubrecent)
    · exact .inr (htold.mono fun use huse => hrecent ▸ List.mem_append_right _ huse)

omit [Device δ] in
/-- At any moment everything in the cache may be old. -/
theorem Standard.current (h : r.Standard) (files : FileTree) :
    r.Current files r.device.uses.length fun key entry =>
      Ordered.get? key r.images.entries = some entry :=
  ⟨h, Nat.le_refl _, fun _ _ => .inl⟩

/-- A command is no more than a use. -/
theorem Current.perform (h : r.Current files start old) (c : Command) :
    (r.perform c).Current files start old :=
  h.step [.performed c] rfl rfl (fun _ _ => .inl) (fun _ _ => .inl)

/-! ## Images and colors -/

omit [Device δ] in
theorem Current.load_eq (h : r.Current files start old) (key : Path) :
    (r.images.load files key).toOption = files.picture? key := by
  unfold FileTree.picture? ImageCache.load
  rw [h.loaders]

/-- An image is old or told by the files. -/
theorem Current.image (h : r.Current files start old) (path : Path) :
    (r.image files path).2.Current files start old ∧
      (old (ImageCache.key files path) (r.image files path).1 ∨
        Told files ((r.image files path).2.device.uses.drop start) (ImageCache.key files path)
          (r.image files path).1) := by
  have hcurrent : (r.image files path).2.Current files start old := by
    cases hknown : Ordered.get? (ImageCache.key files path) r.images.entries with
    | some entry =>
      have hsame : (r.image files path).2 = r := by
        unfold Renderer.image
        rw [ImageCache.acquire_known hknown]
      rw [hsame]
      exact h
    | none =>
      have hput : ∀ (entry : Except ImageError ImageDescriptor) key other,
          Ordered.get? key (r.images.entries ++ [(ImageCache.key files path, entry)]) =
            some other →
          Ordered.get? key r.images.entries = some other ∨
            key = ImageCache.key files path ∧ other = entry := by
        intro entry key other hget
        rw [Ordered.get?_append, Option.or_eq_some_iff] at hget
        rcases hget with hget | ⟨-, hget⟩
        · exact .inl hget
        · rw [Ordered.get?] at hget
          split at hget
          · rename_i hkey
            exact .inr ⟨hkey.symm, (Option.some.inj hget).symm⟩
          · cases hget
      have hpicture := h.load_eq (ImageCache.key files path)
      cases hload : r.images.load files (ImageCache.key files path) with
      | error e =>
        rw [hload] at hpicture
        have himage : (r.image files path).2 =
            { r with images := { r.images with
                entries := r.images.entries ++ [(ImageCache.key files path, .error e)] } } := by
          unfold Renderer.image
          rw [ImageCache.acquire_failed hknown hload]
        rw [himage]
        refine h.step [] (List.append_nil _).symm rfl (fun key other hget => ?_) fun _ _ => .inl
        refine (hput _ key other hget).imp_right ?_
        rintro ⟨rfl, rfl⟩
        exact hpicture.symm
      | ok image =>
        rw [hload] at hpicture
        have himage : (r.image files path).2 =
            { r with
              images := { r.images with
                entries := r.images.entries ++ [(ImageCache.key files path,
                  .ok (.ofImage image (Device.createTexture r.device image).1))] }
              device := (Device.createTexture r.device image).2 } := by
          unfold Renderer.image
          rw [ImageCache.acquire_loaded hknown hload]
        rw [himage]
        refine h.step [.uploaded image (Device.createTexture r.device image).1] rfl rfl
          (fun key other hget => ?_) fun _ _ => .inl
        refine (hput _ key other hget).imp_right ?_
        rintro ⟨rfl, rfl⟩
        exact ⟨image, hpicture.symm, List.mem_singleton_self _⟩
  exact ⟨hcurrent, hcurrent.entries _ _ ImageCache.get?_acquire⟩

/-- The texture of a color has the color. -/
theorem Current.solidColor (h : r.Current files start old) (color : Color) :
    (r.solidColor color).2.Current files start old ∧
      .uploaded (Image.solid color) (r.solidColor color).1.texture ∈
        (r.solidColor color).2.device.uses := by
  cases hknown : Ordered.get? color r.images.solids with
  | some d =>
    have hsame : r.solidColor color = (d, r) := by
      unfold Renderer.solidColor
      rw [ImageCache.solidColor_known hknown]
    rw [hsame]
    exact ⟨h, h.solids color d hknown⟩
  | none =>
    let upload := Device.createTexture r.device (Image.solid color)
    have hnew : r.solidColor color = (.ofImage (Image.solid color) upload.1,
        { r with
          images := { r.images with
            solids := r.images.solids ++ [(color, .ofImage (Image.solid color) upload.1)] }
          device := upload.2 }) := by
      unfold Renderer.solidColor
      rw [ImageCache.solidColor_new hknown]
    rw [hnew]
    refine ⟨h.step [.uploaded (Image.solid color) upload.1] rfl rfl (fun _ _ => .inl)
      fun other d hget => ?_, ?_⟩
    · rw [Ordered.get?_append, Option.or_eq_some_iff] at hget
      refine hget.imp_right ?_
      rintro ⟨-, hget⟩
      rw [Ordered.get?] at hget
      split at hget
      · rename_i hcolor
        obtain rfl := Option.some.inj hget
        rw [← hcolor]
        exact List.mem_singleton_self _
      · cases hget
    · exact List.mem_append_right _ (List.mem_singleton_self _)

/-- What a sampler is supplied with. -/
theorem Current.imageOr (h : r.Current files start old) (path? : Option Path)
    (fallback? : Option Color) :
    (r.imageOr files path? fallback?).2.Current files start old ∧
      Supplied files start old (r.imageOr files path? fallback?).2.device.uses path? fallback?
        ((r.imageOr files path? fallback?).1.map (·.1.texture)) := by
  have hfallback : ∀ r₁ : Renderer (Traced δ), r₁.Current files start old →
      (∀ path ∈ path?, (∃ e, old (ImageCache.key files path) (.error e)) ∨
        files.picture? (ImageCache.key files path) = none) →
      ∀ answer, answer = (match fallback? with
        | some color => (some ((r₁.solidColor color).1, false), (r₁.solidColor color).2)
        | none => (none, r₁) : Option (ImageDescriptor × Bool) × Renderer (Traced δ)) →
      answer.2.Current files start old ∧
        Supplied files start old answer.2.device.uses path? fallback?
          (answer.1.map (·.1.texture)) := by
    rintro r₁ h₁ hmissing answer rfl
    cases fallback? with
    | none => exact ⟨h₁, .nothing hmissing rfl⟩
    | some color =>
      obtain ⟨hcurrent, hsolid⟩ := h₁.solidColor color
      exact ⟨hcurrent, .color hmissing rfl hsolid⟩
  cases path? with
  | none => exact hfallback r h (fun path hpath => nomatch hpath) _ (by cases fallback? <;> rfl)
  | some path =>
    obtain ⟨hcurrent, hentry⟩ := h.image path
    unfold Renderer.imageOr
    generalize hanswer : r.image files path = answer at hcurrent hentry
    obtain ⟨result, r₁⟩ := answer
    cases result with
    | ok d =>
      simp only [hanswer]
      exact ⟨hcurrent, .image rfl hentry⟩
    | error e =>
      have hmissing : ∀ p ∈ some path, (∃ e, old (ImageCache.key files p) (.error e)) ∨
          files.picture? (ImageCache.key files p) = none := by
        rintro p hp
        obtain rfl := Option.mem_some.1 hp
        exact hentry.imp_left fun hold => ⟨e, hold⟩
      refine hfallback r₁ hcurrent hmissing _ ?_
      simp only [hanswer]
      cases fallback? <;> rfl

/-! ## Drawing -/

/-- The uses on the way from the first renderer to the second are in the set. -/
def Issues (P : Use → Prop) (r r' : Renderer (Traced δ)) : Prop :=
  ∃ more, r'.device.uses = r.device.uses ++ more ∧ ∀ use ∈ more, P use

section Issues

variable {P Q : Use → Prop} {r₁ : Renderer (Traced δ)}

omit [Device δ] in
theorem Issues.refl (r : Renderer (Traced δ)) : Issues P r r :=
  ⟨[], (List.append_nil _).symm, fun _ huse => nomatch huse⟩

omit [Device δ] in
theorem Issues.trans (h : Issues P r r₁) (h' : Issues P r₁ r') : Issues P r r' := by
  obtain ⟨more, huses, hmore⟩ := h
  obtain ⟨more', huses', hmore'⟩ := h'
  refine ⟨more ++ more', by rw [huses', huses, List.append_assoc], fun use huse => ?_⟩
  exact (List.mem_append.1 huse).elim (hmore use) (hmore' use)

omit [Device δ] in
theorem Issues.mono (h : Issues P r r') (hPQ : ∀ use, P use → Q use) : Issues Q r r' := by
  obtain ⟨more, huses, hmore⟩ := h
  exact ⟨more, huses, fun use huse => hPQ use (hmore use huse)⟩

theorem Issues.perform (h : Issues P r r₁) {c : Command} (hc : P (.performed c)) :
    Issues P r (r₁.perform c) := by
  refine h.trans ⟨[.performed c], rfl, fun use huse => ?_⟩
  rwa [List.mem_singleton.1 huse]

theorem issues_of_drivenBy {P : Command → Prop} (h : DrivenBy P r r') :
    Issues (fun use => ∀ c, use = .performed c → P c) r r' := by
  obtain ⟨more, huses, hmore⟩ := Traced.uses_of_driven h.device
  refine ⟨more, huses, ?_⟩
  rintro use huse c rfl
  exact hmore c huse

omit [Device δ] in
theorem Issues.mem (h : Issues P r r') {use : Use} (huse : use ∈ r.device.uses) :
    use ∈ r'.device.uses := by
  obtain ⟨more, huses, -⟩ := h
  exact huses ▸ List.mem_append_left _ huse

omit [Device δ] in
theorem Issues.mem_drop (h : Issues P r r') (hstart : start ≤ r.device.uses.length) {use : Use}
    (huse : use ∈ r.device.uses.drop start) : use ∈ r'.device.uses.drop start := by
  obtain ⟨more, huses, -⟩ := h
  rw [huses, List.drop_append_of_le_length hstart]
  exact List.mem_append_left _ huse

omit [Device δ] in
theorem Issues.length_le (h : Issues P r r') : r.device.uses.length ≤ r'.device.uses.length := by
  obtain ⟨more, huses, -⟩ := h
  rw [huses, List.length_append]
  exact Nat.le_add_right _ _

omit [Device δ] in
/-- What was done since is in the set. -/
theorem Issues.of_mem_drop (h : Issues P r r') {use : Use}
    (huse : use ∈ r'.device.uses.drop r.device.uses.length) : P use := by
  obtain ⟨more, huses, hmore⟩ := h
  rw [huses, List.drop_left] at huse
  exact hmore use huse

end Issues

omit [Device δ] in
/-- What was supplied still is when more was done. -/
theorem Issues.later {b : ShaderBinding} {asks : Requests} {r₁ : Renderer (Traced δ)}
    {P : Use → Prop} (h : Issues (b.Supplies files start old asks r₁.device.uses) r r₁)
    (hmore : Issues P r₁ r') (hstart : start ≤ r₁.device.uses.length) :
    Issues (b.Supplies files start old asks r'.device.uses) r r₁ :=
  h.mono fun _ hc => hc.mono (fun _ => hmore.mem) fun _ => hmore.mem_drop hstart

/-- Drawing keeps to the files as they are, and supplies samplers with what they are asked to
show. -/
theorem Current.draws {b : ShaderBinding} {asks : Requests} (h : r.Current files start old)
    (hdraws : Draws files b asks r r') :
    r'.Current files start old ∧
      Issues (b.Supplies files start old asks r'.device.uses) r r' := by
  induction hdraws with
  | refl => exact ⟨h, .refl r⟩
  | @command r₁ c _ hc ih =>
    obtain ⟨hcurrent, hissues⟩ := ih
    have hmore : Issues (fun _ => True) r₁ (r₁.perform c) := (Issues.refl r₁).perform trivial
    refine ⟨hcurrent.perform c, (hissues.later hmore hcurrent.started).perform ⟨?_, ?_⟩⟩
    · intro t unit sampling huse
      obtain rfl := Use.performed.inj huse
      exact hc.elim
    · intro p name unit huse
      obtain rfl := Use.performed.inj huse
      exact hc.elim
  | @sampler r₁ b₁ uniform path? fallback? _ halike hasks ih =>
    obtain ⟨hcurrent, hissues⟩ := ih
    unfold ShaderBinding.bindTexture
    cases hunit : Ordered.get? uniform b₁.units with
    | none => exact ⟨hcurrent, hissues⟩
    | some unit =>
      have himage : ∀ uses, Issues (b.Supplies files start old asks uses) r₁
          (r₁.imageOr files path? fallback?).2 := fun uses =>
        (issues_of_drivenBy (P := fun _ => False) (imageOr_drivenBy r₁ files path? fallback?)).mono
          fun use huse => ⟨fun _ _ _ heq => (huse _ heq).elim, fun _ _ _ heq => (huse _ heq).elim⟩
      obtain ⟨hcurrent', hsupplied⟩ := hcurrent.imageOr path? fallback?
      dsimp only
      generalize r₁.imageOr files path? fallback? = answer at himage hcurrent' hsupplied
      obtain ⟨image?, r₂⟩ := answer
      rw [halike.units] at hunit
      cases image? with
      | none =>
        exact ⟨hcurrent', (hissues.later (himage r₁.device.uses) hcurrent.started).trans (himage _)⟩
      | some image =>
        dsimp only
        generalize hr₃ : r₂.perform (.bindTexture image.1.texture unit {}) = r₃
        have hbind : ∀ {P : Use → Prop}, P (.performed (.bindTexture image.1.texture unit {})) →
            Issues P r₂ r₃ := fun hP => hr₃ ▸ (Issues.refl r₂).perform hP
        have htell : ∀ {P : Use → Prop},
            P (.performed (.setUniform b₁.program.id uniform (.sampler unit))) →
            Issues P r₃ (b₁.write uniform (.sampler unit) r₃) := fun hP => (Issues.refl r₃).perform hP
        have hlast : Issues (fun _ => True) r₂ (b₁.write uniform (.sampler unit) r₃) :=
          (hbind trivial).trans (htell trivial)
        have hall := ((himage r₁.device.uses).mono fun _ _ => trivial).trans hlast
        refine ⟨(hr₃ ▸ hcurrent'.perform _ : r₃.Current files start old).perform _, ?_⟩
        refine (((hissues.later hall hcurrent.started).trans (himage _)).trans
          (hbind ⟨?_, nofun⟩)).trans (htell ⟨nofun, ?_⟩)
        · intro t unit' sampling heq
          obtain ⟨rfl, rfl, -⟩ := Command.bindTexture.inj (Use.performed.inj heq)
          exact ⟨uniform, path?, fallback?, hunit, hasks, hsupplied.mono (fun _ => hlast.mem)
            fun _ => hlast.mem_drop hcurrent'.started⟩
        · intro p name unit' heq
          obtain ⟨rfl, rfl, hvalue⟩ := Command.setUniform.inj (Use.performed.inj heq)
          obtain rfl := UniformValue.sampler.inj hvalue
          exact ⟨congrArg CompiledProgram.id halike.program, hunit⟩

/-- A sampler with a unit is supplied by putting a texture on the unit and telling it the unit, if
there is something to show. -/
theorem Current.bindTexture {b : ShaderBinding} (h : r.Current files start old) {uniform : String}
    {unit : Nat} (hunit : Ordered.get? uniform b.units = some unit) (path? : Option Path)
    (fallback? : Option Color) :
    let uses := (b.bindTexture files uniform path? fallback? r).2.device.uses
    (b.bindTexture files uniform path? fallback? r).2.Current files start old ∧
      ∃ texture?, Supplied files start old uses path? fallback? texture? ∧
        ∀ t ∈ texture?,
          .performed (.bindTexture t unit {}) ∈ uses.drop r.device.uses.length ∧
          .performed (.setUniform b.program.id uniform (.sampler unit)) ∈
            uses.drop r.device.uses.length := by
  obtain ⟨hcurrent, hsupplied⟩ := h.imageOr path? fallback?
  obtain ⟨more, huses, -⟩ := issues_of_drivenBy (P := fun _ => False)
    (imageOr_drivenBy r files path? fallback?)
  unfold ShaderBinding.bindTexture
  rw [hunit]
  dsimp only
  generalize r.imageOr files path? fallback? = answer at hcurrent hsupplied huses
  obtain ⟨image?, r₁⟩ := answer
  cases image? with
  | none => exact ⟨hcurrent, none, hsupplied, nofun⟩
  | some image =>
    let r₂ := r₁.perform (.bindTexture image.1.texture unit {})
    have hlast : Issues (fun _ => True) r₁ (b.write uniform (.sampler unit) r₂) :=
      ((Issues.refl r₁).perform trivial).perform trivial
    have hdropped : (b.write uniform (.sampler unit) r₂).device.uses.drop r.device.uses.length =
        more ++ [.performed (.bindTexture image.1.texture unit {}),
          .performed (.setUniform b.program.id uniform (.sampler unit))] := by
      show ((r₁.device.uses ++ [_]) ++ [_]).drop _ = _
      rw [huses, List.append_assoc, List.append_assoc, List.drop_left]
      rfl
    refine ⟨(hcurrent.perform _).perform _, some image.1.texture,
      hsupplied.mono (fun _ => hlast.mem) fun _ => hlast.mem_drop hcurrent.started, fun t ht => ?_⟩
    obtain rfl := Option.mem_some.1 ht
    dsimp only
    rw [hdropped]
    exact ⟨List.mem_append_right _ List.mem_cons_self,
      List.mem_append_right _ (List.mem_cons_of_mem _ List.mem_cons_self)⟩

/-! ## Programs -/

theorem Current.program (h : r.Current files start old) (name : String) (source : ProgramSource) :
    (r.program name source).2.Current files start old := by
  have himages : (r.program name source).2.images = r.images := rfl
  rcases r.program_device name source with hdevice | hdevice
  · exact h.step [] (by rw [hdevice, List.append_nil]) (by rw [himages]) (fun _ _ => .inl)
      fun _ _ => .inl
  · exact h.step [.compiled name source (Device.compile r.device.device name source).1]
      (by rw [hdevice]; rfl) (by rw [himages]) (fun _ _ => .inl) fun _ _ => .inl

theorem issues_purge (r : Renderer (Traced δ)) (held : List ProgramId) :
    Issues (fun use => ∃ p, use = .performed (.releaseProgram p)) r (r.purgePrograms held) := by
  have hdevice : (r.purgePrograms held).device =
      ((r.programs.unused held).map fun p => Command.releaseProgram p.id).foldl Device.perform
        r.device := List.foldl_map.symm
  refine ⟨((r.programs.unused held).map fun p => Command.releaseProgram p.id).map .performed, ?_,
    fun use huse => ?_⟩
  · rw [hdevice, Traced.foldl_perform]
  · obtain ⟨c, hc, rfl⟩ := List.mem_map.1 huse
    obtain ⟨p, -, rfl⟩ := List.mem_map.1 hc
    exact ⟨p.id, rfl⟩

theorem Current.purge (h : r.Current files start old) (held : List ProgramId) :
    (r.purgePrograms held).Current files start old := by
  obtain ⟨more, huses, -⟩ := r.issues_purge held
  exact h.step more huses rfl (fun _ _ => .inl) fun _ _ => .inl

/-! ## Dropping an image -/

theorem get?_invalidate (r : Renderer δ) (files : FileTree) (path key : Path) :
    Ordered.get? key (r.invalidate files path).images.entries =
      if key = ImageCache.key files path then none else Ordered.get? key r.images.entries := by
  show Ordered.get? key (Ordered.erase (ImageCache.key files path) r.images.entries) = _
  split
  · rename_i hkey
    rw [hkey, Ordered.get?_erase_self]
  · rename_i hkey
    exact Ordered.get?_erase_of_ne hkey _

/-- At most a texture is given up. -/
theorem issues_invalidate (r : Renderer (Traced δ)) (files : FileTree) (path : Path) :
    Issues (fun use => ∃ t, use = .performed (.releaseTexture t)) r (r.invalidate files path) := by
  show Issues _ r { r with
    images := (r.images.invalidate files path r.device).1
    device := (r.images.invalidate files path r.device).2 }
  unfold ImageCache.invalidate
  dsimp only
  split
  · exact ⟨[_], rfl, fun use huse => ⟨_, List.mem_singleton.1 huse⟩⟩
  · exact ⟨[], (List.append_nil _).symm, nofun⟩

theorem Current.invalidate (h : r.Current files start old) (path : Path) :
    (r.invalidate files path).Current files start old := by
  obtain ⟨more, huses, -⟩ := r.issues_invalidate files path
  refine h.step more huses rfl (fun key entry hget => ?_) fun _ _ => .inl
  rw [get?_invalidate] at hget
  split at hget
  · cases hget
  · exact .inl hget

theorem get?_foldl_invalidate (paths : List Path) (r : Renderer δ) (files : FileTree) (key : Path) :
    Ordered.get? key (paths.foldl (·.invalidate files ·) r).images.entries =
      if key ∈ paths.map (ImageCache.key files) then none
      else Ordered.get? key r.images.entries := by
  induction paths generalizing r with
  | nil => rfl
  | cons path rest ih =>
    rw [List.foldl_cons, ih, get?_invalidate, List.map_cons]
    by_cases hrest : key ∈ rest.map (ImageCache.key files)
    · rw [if_pos hrest, if_pos (List.mem_cons_of_mem _ hrest)]
    · by_cases hpath : key = ImageCache.key files path
      · rw [if_neg hrest, if_pos hpath, if_pos (hpath ▸ List.mem_cons_self)]
      · rw [if_neg hrest, if_neg hpath, if_neg (by simpa [hpath] using hrest)]

theorem issues_foldl_invalidate (paths : List Path) (r : Renderer (Traced δ)) (files : FileTree) :
    Issues (fun use => ∃ t, use = .performed (.releaseTexture t)) r
      (paths.foldl (·.invalidate files ·) r) := by
  induction paths generalizing r with
  | nil => exact .refl r
  | cons path rest ih => exact (r.issues_invalidate files path).trans (ih _)

theorem Current.foldl_invalidate (h : r.Current files start old) (paths : List Path) :
    (paths.foldl (·.invalidate files ·) r).Current files start old := by
  induction paths generalizing r with
  | nil => exact h
  | cons path rest ih => exact ih (h.invalidate path)

/-! ## Keys -/

section Keys

variable {b : ShaderBinding} {asks : Requests} {r r' : Renderer δ}

/-- What is in the cache after a sampler with a unit was supplied with the image of its path. -/
theorem entries_bindTexture (b : ShaderBinding) (files : FileTree) (uniform : String)
    (path? : Option Path) (fallback? : Option Color) (r : Renderer δ) :
    (b.bindTexture files uniform path? fallback? r).2.images.entries =
      ((Ordered.get? uniform b.units).bind fun _ => path?).elim r.images.entries fun path =>
        (r.image files path).2.images.entries := by
  have hsolid : ∀ (r₁ : Renderer δ) color,
      (r₁.solidColor color).2.images.entries = r₁.images.entries :=
    fun r₁ color => ImageCache.entries_solidColor
  have himageOr : (r.imageOr files path? fallback?).2.images.entries =
      path?.elim r.images.entries fun path => (r.image files path).2.images.entries := by
    unfold Renderer.imageOr
    cases path? with
    | none => cases fallback? <;> simp only [hsolid, Option.elim]
    | some path =>
      dsimp only [Option.elim]
      cases (r.image files path).1.toOption <;> cases fallback? <;> simp only [hsolid]
  unfold ShaderBinding.bindTexture
  cases Ordered.get? uniform b.units with
  | none => rfl
  | some unit =>
    rw [Option.bind_some, ← himageOr]
    dsimp only
    generalize r.imageOr files path? fallback? = answer
    obtain ⟨image?, r₁⟩ := answer
    cases image? <;> rfl

/-- A sampler is supplied with a picture that is in the cache. -/
theorem bindTexture_known {uniform : String} {unit : Nat} {path : Path} {d : ImageDescriptor}
    (hunit : Ordered.get? uniform b.units = some unit)
    (hentry : Ordered.get? (ImageCache.key files path) r.images.entries = some (.ok d))
    (fallback? : Option Color) :
    b.bindTexture files uniform (some path) fallback? r =
      (some d, b.write uniform (.sampler unit) (r.perform (.bindTexture d.texture unit {}))) := by
  have himage : r.image files path = (.ok d, r) := by
    unfold image
    rw [ImageCache.acquire_known hentry]
  have himageOr : r.imageOr files (some path) fallback? = (some (d, true), r) := by
    unfold imageOr
    simp only [himage]
    rfl
  unfold ShaderBinding.bindTexture
  rw [hunit]
  simp only [himageOr]
  rfl

/-- After a sampler was supplied the image of its path is in the cache. -/
theorem get?_bindTexture {uniform : String} {unit : Nat}
    (hunit : Ordered.get? uniform b.units = some unit) (path : Path) (fallback? : Option Color) :
    Ordered.get? (ImageCache.key files path)
      (b.bindTexture files uniform (some path) fallback? r).2.images.entries =
        some (r.image files path).1 := by
  rw [entries_bindTexture, hunit]
  exact ImageCache.get?_acquire

/-- Drawing adds entries only for paths whose pictures are to be shown. -/
theorem Draws.keys (h : Draws files b asks r r') {key : Path}
    (hkey : (Ordered.get? key r'.images.entries).isSome = true) :
    (Ordered.get? key r.images.entries).isSome = true ∨
      ∃ uniform path fallback?, asks uniform (some path) fallback? ∧
        key = ImageCache.key files path := by
  induction h with
  | refl => exact .inl hkey
  | command _ _ ih => exact ih hkey
  | @sampler r₁ b₁ uniform path? fallback? _ _ hasks ih =>
    rw [entries_bindTexture] at hkey
    cases hpath : (Ordered.get? uniform b₁.units).bind fun _ => path? with
    | none =>
      rw [hpath] at hkey
      exact ih hkey
    | some path =>
      rw [hpath] at hkey
      obtain ⟨-, -, rfl⟩ := Option.bind_eq_some_iff.1 hpath
      by_cases hsame : key = ImageCache.key files path
      · exact .inr ⟨uniform, path, fallback?, hasks, hsame⟩
      · rw [Option.elim, image, ImageCache.get?_acquire_of_ne hsame] at hkey
        exact ih hkey

/-- What is in the cache stays. -/
theorem Draws.keeps (h : Draws files b asks r r') {key : Path}
    {entry : Except ImageError ImageDescriptor}
    (hentry : Ordered.get? key r.images.entries = some entry) :
    Ordered.get? key r'.images.entries = some entry := by
  induction h with
  | refl => exact hentry
  | command _ _ ih => exact ih
  | @sampler r₁ b₁ uniform path? fallback? _ _ _ ih =>
    rw [entries_bindTexture]
    cases (Ordered.get? uniform b₁.units).bind fun _ => path? with
    | none => exact ih
    | some path =>
      rw [Option.elim, image]
      by_cases hsame : key = ImageCache.key files path
      · subst hsame
        rw [ImageCache.acquire_known ih, ih]
      · exact (ImageCache.get?_acquire_of_ne hsame).trans ih

end Keys

/-- If all pictures that are to be shown are in the cache, nothing is uploaded. -/
theorem Draws.cached {b : ShaderBinding} {asks : Requests} (h : Draws files b asks r r')
    (hknown : ∀ uniform path? fallback?, asks uniform path? fallback? → ∃ path ∈ path?, ∃ d,
      Ordered.get? (ImageCache.key files path) r.images.entries = some (.ok d)) :
    r'.images = r.images ∧ Issues (fun use => ∃ c, use = .performed c) r r' := by
  induction h with
  | refl => exact ⟨rfl, .refl r⟩
  | @command r₁ c _ _ ih => exact ⟨ih.1, ih.2.perform ⟨c, rfl⟩⟩
  | @sampler r₁ b₁ uniform path? fallback? _ _ hasks ih =>
    obtain ⟨himages, hissues⟩ := ih
    obtain ⟨path, hpath, d, hentry⟩ := hknown _ _ _ hasks
    obtain rfl := Option.mem_def.1 hpath
    cases hunit : Ordered.get? uniform b₁.units with
    | none =>
      unfold ShaderBinding.bindTexture
      rw [hunit]
      exact ⟨himages, hissues⟩
    | some unit =>
      rw [bindTexture_known hunit (himages ▸ hentry)]
      exact ⟨himages, (hissues.perform ⟨_, rfl⟩).perform ⟨_, rfl⟩⟩

/-! ## Files that change -/

/-- Each entry of the cache is that of a file, and is told by the files as they are, but for the files
under some keys. -/
structure Faithful (files : FileTree) (stale : List Path) (r : Renderer (Traced δ)) : Prop
    extends r.Standard where
  keys : ∀ key, (Ordered.get? key r.images.entries).isSome = true →
    ∃ other, key = ImageCache.key files other
  entries : ∀ key entry, Ordered.get? key r.images.entries = some entry →
    key ∈ stale ∨ Told files r.device.uses key entry

section Faithful

variable {stale : List Path} {files' : FileTree} {path : Path}

omit [Device δ] in
theorem Faithful.current (h : r.Faithful files stale) :
    r.Current files r.device.uses.length
      (fun key entry => key ∈ stale ∨ Told files r.device.uses key entry) :=
  ⟨h.toStandard, Nat.le_refl _, fun key entry hget => .inl (h.entries key entry hget)⟩

omit [Device δ] in
/-- What keeps to the files as they are leaves the cache faithful. -/
theorem Current.faithful {uses : List Use}
    (h : r.Current files start fun key entry => key ∈ stale ∨ Told files uses key entry)
    (huses : ∀ use ∈ uses, use ∈ r.device.uses)
    (hkeys : ∀ key, (Ordered.get? key r.images.entries).isSome = true →
      ∃ other, key = ImageCache.key files other) : r.Faithful files stale := by
  refine ⟨h.toStandard, hkeys, fun key entry hget => ?_⟩
  rcases h.entries key entry hget with hold | htold
  · exact hold.imp_right (·.mono huses)
  · exact .inr (htold.mono fun _ => List.mem_of_mem_drop)

omit [Device δ] in
/-- Where pictures are the same, the cache is as faithful as before. -/
theorem Faithful.congr (h : r.Faithful files stale)
    (hdirectory : files'.workingDirectory = files.workingDirectory)
    (hpictures : ∀ key ∉ stale, (∃ other, key = ImageCache.key files other) →
      files'.picture? key = files.picture? key) : r.Faithful files' stale := by
  refine ⟨h.toStandard, fun key hkey => ?_, fun key entry hget => ?_⟩
  · obtain ⟨other, rfl⟩ := h.keys key hkey
    exact ⟨other, by rw [ImageCache.key_eq, ImageCache.key_eq, hdirectory]⟩
  · by_cases hstale : key ∈ stale
    · exact .inl hstale
    · exact (h.entries key entry hget).imp_right
        (·.congr (hpictures key hstale (h.keys key (by rw [hget]; rfl))))

omit [Device δ] in
/-- When the content at a path changes, its entry becomes stale. -/
theorem Faithful.change (h : r.Faithful files stale)
    (hproper : Path.IsProper files.workingDirectory) (htext : path.text ≠ "")
    (hchange : files.ChangedOnlyAt files' path) :
    r.Faithful files' (ImageCache.key files path :: stale) := by
  have hkey : ImageCache.key files' path = ImageCache.key files path := by
    rw [ImageCache.key_eq, ImageCache.key_eq, hchange.workingDirectory]
  have hmore : r.Faithful files (ImageCache.key files path :: stale) :=
    ⟨h.toStandard, h.keys, fun key entry hget =>
      (h.entries key entry hget).imp_left (List.mem_cons_of_mem _)⟩
  refine hmore.congr hchange.workingDirectory ?_
  rintro key hnot ⟨other, rfl⟩
  refine hchange.picture?_eq hproper htext fun heq => hnot ?_
  rw [heq, hkey]
  exact List.mem_cons_self

/-- When the entry of a path is dropped, it is stale no longer. -/
theorem Faithful.invalidate (h : r.Faithful files stale) (path : Path) :
    (r.invalidate files path).Faithful files (stale.filter (· ≠ ImageCache.key files path)) := by
  have hsub : ∀ use ∈ r.device.uses, use ∈ (r.invalidate files path).device.uses :=
    fun _ => (r.issues_invalidate files path).mem
  refine ⟨⟨h.loaders, fun color d hget => hsub _ (h.solids color d hget)⟩, fun key hkey => ?_,
    fun key entry hget => ?_⟩
  · rw [get?_invalidate] at hkey
    split at hkey
    · cases hkey
    · exact h.keys key hkey
  · rw [get?_invalidate] at hget
    split at hget
    · cases hget
    · rename_i hne
      refine (h.entries key entry hget).imp (fun hstale => ?_) (·.mono hsub)
      exact List.mem_filter.2 ⟨hstale, by simpa using hne⟩

end Faithful

end Renderer

end MaterialViewer
