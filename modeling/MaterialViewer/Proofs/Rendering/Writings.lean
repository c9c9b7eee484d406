import Mathlib.Data.List.Forall2
import MaterialViewer.Proofs.Image.Cache
import MaterialViewer.Proofs.Rendering.Script

/-!
# Proofs: what scripts write

A uniform and a texture unit keep what was written to them last. What a script writes is told from
the image cache and the files as they are before it, with the name of the file or the color in place
of the texture. On the way the cache only grows, so that the device is told the textures of just
these files and colors.
-/

namespace MaterialViewer

/-- What keeps what was written to it last. -/
inductive Place
  /-- A uniform of a program. -/
  | uniform (program : ProgramId) (name : String)
  /-- A texture unit. -/
  | unit (number : Nat)
deriving DecidableEq

/-- What is written to a place: a value, or a texture as told by `τ`. -/
inductive Content (τ : Type)
  | value (value : UniformValue)
  | texture (texture : τ)
deriving DecidableEq

/-- What was written last to a place. -/
def lastAt {τ : Type} (place : Place) (writings : List (Place × Content τ)) : Option (Content τ) :=
  Ordered.get? place writings.reverse

/-- What a use writes. -/
def Use.writing? : Use → Option (Place × Content TextureId)
  | performed (.setUniform program name value) => some (.uniform program name, .value value)
  | performed (.bindTexture texture unit _) => some (.unit unit, .texture texture)
  | _ => none

/-- What was written to a device. -/
def Traced.writings {δ : Type} (d : Traced δ) : List (Place × Content TextureId) :=
  d.uses.filterMap Use.writing?

/-- Where a texture comes from, as seen at some moment. -/
inductive TextureSource
  /-- The texture was there. -/
  | held (texture : TextureId)
  /-- The file that is kept under a key is read. -/
  | file (key : Path)
  /-- The color is uploaded. -/
  | color (color : Color)
deriving DecidableEq

/-! ## Last writings -/

section Last

variable {τ τ' : Type} {place : Place} {content : Content τ}
  {writings more : List (Place × Content τ)}

theorem lastAt_append : lastAt place (writings ++ more) =
    (lastAt place more).or (lastAt place writings) := by
  rw [lastAt, List.reverse_append, Ordered.get?_append]
  rfl

theorem mem_of_lastAt (h : lastAt place writings = some content) : (place, content) ∈ writings :=
  List.mem_reverse.1 (Ordered.mem_of_get? h)

theorem lastAt_eq_none_iff : lastAt place writings = none ↔ ∀ w ∈ writings, w.1 ≠ place := by
  refine Ordered.get?_eq_none_iff.trans ⟨fun h w hw heq => h ?_, fun h hmem => ?_⟩
  · exact List.mem_map.2 ⟨w, List.mem_reverse.2 hw, heq⟩
  · obtain ⟨w, hw, heq⟩ := List.mem_map.1 hmem
    exact h w (List.mem_reverse.1 hw) heq

/-- A writing is the last one if none after it is to its place. -/
theorem lastAt_append_cons (h : ∀ w ∈ more, w.1 ≠ place) :
    lastAt place (writings ++ (place, content) :: more) = some content := by
  have hhere : lastAt place [(place, content)] = some content := if_pos rfl
  rw [← List.singleton_append, lastAt_append, lastAt_append, lastAt_eq_none_iff.2 h, hhere]
  rfl

/-- What is all that is written to a place is what is written last. -/
theorem lastAt_of_unique (h : (place, content) ∈ writings)
    (hunique : ∀ other, (place, other) ∈ writings → other = content) :
    lastAt place writings = some content := by
  cases hlast : lastAt place writings with
  | none => exact absurd rfl (lastAt_eq_none_iff.1 hlast _ h)
  | some other => rw [hunique other (mem_of_lastAt hlast)]

/-- Related writings have related last contents. -/
theorem lastAt_rel {R : Content τ → Content τ' → Prop} {writings' : List (Place × Content τ')}
    (h : List.Forall₂ (fun w w' => w.1 = w'.1 ∧ R w.2 w'.2) writings writings') (place : Place) :
    Option.Rel R (lastAt place writings) (lastAt place writings') := by
  unfold lastAt
  replace h := List.forall₂_reverse_iff.2 h
  generalize writings.reverse = ws at h
  generalize writings'.reverse = ws' at h
  induction h with
  | nil => exact .none
  | @cons w w' ws ws' hw _ ih =>
    unfold Ordered.get?
    rw [← hw.1]
    split
    · exact .some hw.2
    · exact ih

end Last

/-! ## Growing caches -/

namespace ImageCache

/-- What the second cache has besides, the first one does not know yet. -/
structure Persists (c c' : ImageCache) : Prop where
  loaders : c'.loaders = c.loaders
  entries : ∀ key entry, Ordered.get? key c.entries = some entry →
    Ordered.get? key c'.entries = some entry
  solids : ∀ color d, Ordered.get? color c.solids = some d → Ordered.get? color c'.solids = some d

/-- The entry is what came of reading a file: the image that was uploaded, or the error. -/
def WasRead (uses : List Use) : Except ImageError Image → Except ImageError ImageDescriptor → Prop
  | .ok image, .ok d => ∃ t, d = .ofImage image t ∧ .uploaded image t ∈ uses
  | .error e, .error e' => e' = e
  | _, _ => False

/-- The second cache has grown out of the first by reading files and uploading colors. -/
structure Grown (files : FileTree) (c₀ : ImageCache) (uses : List Use) (c : ImageCache) : Prop
    extends c₀.Persists c where
  read : ∀ key entry, Ordered.get? key c₀.entries = none → Ordered.get? key c.entries = some entry →
    WasRead uses (c₀.load files key) entry
  made : ∀ color d, Ordered.get? color c₀.solids = none → Ordered.get? color c.solids = some d →
    ∃ t, d = .ofImage (Image.solid color) t ∧ .uploaded (Image.solid color) t ∈ uses

/-- Where the image in a file comes from, with the number of its mip levels; none if there is no
image. -/
def fileSource? (c : ImageCache) (files : FileTree) (path : Path) : Option (TextureSource × Nat) :=
  match Ordered.get? (key files path) c.entries with
  | some entry => entry.toOption.map fun d => (.held d.texture, d.mipCount)
  | none => (c.load files (key files path)).toOption.map fun image =>
      (.file (key files path), image.mipCount)

/-- Where the texture of a color comes from. -/
def colorSource (c : ImageCache) (color : Color) : TextureSource :=
  match Ordered.get? color c.solids with
  | some d => .held d.texture
  | none => .color color

/-- Where the texture for an image or else a color comes from, with the number of mip levels if it
is an image. -/
def sourceOr? (c : ImageCache) (files : FileTree) (path? : Option Path) (fallback? : Option Color) :
    Option (TextureSource × Option Nat) :=
  ((path?.bind (c.fileSource? files)).map fun source => (source.1, some source.2)).or
    (fallback?.map fun color => (c.colorSource color, none))

end ImageCache

/-- The texture of a source, if the cache has it by now. -/
def TextureSource.texture? (c : ImageCache) : TextureSource → Option TextureId
  | held texture => some texture
  | file key => ((Ordered.get? key c.entries).bind (·.toOption)).map (·.texture)
  | color rgba => (Ordered.get? rgba c.solids).map (·.texture)

/-- The texture comes from the source: it was there, or the image in the file was uploaded, or the
color was. -/
def TextureSource.Gives (c : ImageCache) (files : FileTree) (uses : List Use) :
    TextureSource → TextureId → Prop
  | held texture, t => t = texture
  | file key, t => ∃ image, c.load files key = .ok image ∧ .uploaded image t ∈ uses
  | color rgba, t => .uploaded (Image.solid rgba) t ∈ uses

/-- The source was to be had at the beginning: a texture that was there, or a file or a color that
the cache did not have yet. -/
def TextureSource.IsOf (c : ImageCache) (there : List TextureId) : TextureSource → Prop
  | held texture => texture ∈ there
  | file key => Ordered.get? key c.entries = none
  | color rgba => Ordered.get? rgba c.solids = none

namespace ImageCache

variable {δ : Type} [Device δ] {files : FileTree} {c₀ c c' : ImageCache} {uses more : List Use}
  {d : Traced δ}

theorem Persists.refl (c : ImageCache) : c.Persists c := ⟨rfl, fun _ _ => id, fun _ _ => id⟩

theorem Persists.trans {c'' : ImageCache} (h : c.Persists c') (h' : c'.Persists c'') :
    c.Persists c'' :=
  ⟨h'.loaders.trans h.loaders,
    fun key entry hget => h'.entries key entry (h.entries key entry hget),
    fun color d hget => h'.solids color d (h.solids color d hget)⟩

theorem Grown.refl (files : FileTree) (c : ImageCache) : Grown files c [] c where
  toPersists := .refl c
  read key entry hnone hsome := by cases hnone.symm.trans hsome
  made color d hnone hsome := by cases hnone.symm.trans hsome

theorem WasRead.mono {read : Except ImageError Image} {entry : Except ImageError ImageDescriptor}
    (h : WasRead uses read entry) (hsub : ∀ use ∈ uses, use ∈ more) : WasRead more read entry := by
  cases read <;> cases entry
  · exact h
  · exact h
  · exact h
  · obtain ⟨t, hd, hmem⟩ := h
    exact ⟨t, hd, hsub _ hmem⟩

theorem Grown.mono (h : Grown files c₀ uses c) (hsub : ∀ use ∈ uses, use ∈ more) :
    Grown files c₀ more c where
  toPersists := h.toPersists
  read key entry hnone hsome := (h.read key entry hnone hsome).mono hsub
  made color d hnone hsome := (h.made color d hnone hsome).imp fun _ ht => ht.imp_right (hsub _)

theorem load_congr (h : c'.loaders = c.loaders) (files : FileTree) (path : Path) :
    c'.load files path = c.load files path := by
  unfold load
  rw [h]

/-- What the cache has for a file is where its image comes from. -/
theorem Grown.fileSource (h : Grown files c₀ uses c) {path : Path}
    {entry : Except ImageError ImageDescriptor}
    (hentry : Ordered.get? (key files path) c.entries = some entry) :
    c₀.fileSource? files path = none ∧ entry.toOption = none ∨
      ∃ source d, c₀.fileSource? files path = some (source, d.mipCount) ∧ entry = .ok d ∧
        source.texture? c = some d.texture := by
  unfold fileSource?
  cases hold : Ordered.get? (key files path) c₀.entries with
  | some entry' =>
    obtain rfl := Option.some.inj ((h.entries _ _ hold).symm.trans hentry)
    cases entry' with
    | error e => exact .inl ⟨rfl, rfl⟩
    | ok d => exact .inr ⟨_, d, rfl, rfl, rfl⟩
  | none =>
    have hread := h.read _ entry hold hentry
    cases hload : c₀.load files (key files path) with
    | error e =>
      cases entry with
      | error e' => exact .inl ⟨rfl, rfl⟩
      | ok d => exact (hload ▸ hread : WasRead uses (.error e) (.ok d)).elim
    | ok image =>
      cases entry with
      | error e' => exact (hload ▸ hread : WasRead uses (.ok image) (.error e')).elim
      | ok d =>
        obtain ⟨t, rfl, -⟩ := (hload ▸ hread : WasRead uses (.ok image) (.ok d))
        refine .inr ⟨_, _, rfl, rfl, ?_⟩
        simp only [TextureSource.texture?, hentry, Option.bind_some, Except.toOption,
          Option.map_some]

/-- An image has a source exactly if it can be acquired. -/
theorem isSome_fileSource? (c : ImageCache) (files : FileTree) (path : Path) (d : Traced δ) :
    (c.fileSource? files path).isSome = (c.acquire files path d).1.toOption.isSome := by
  unfold fileSource?
  cases hknown : Ordered.get? (key files path) c.entries with
  | some entry =>
    rw [acquire_known hknown]
    cases entry <;> rfl
  | none =>
    cases hload : c.load files (key files path) with
    | error e => rw [acquire_failed hknown hload]; rfl
    | ok image => rw [acquire_loaded hknown hload]; rfl

/-- Sources for images and colors were to be had at the beginning. -/
theorem isOf_sourceOr? {there : List TextureId} (hthere : ∀ t ∈ c.textures, t ∈ there)
    {path? : Option Path} {fallback? : Option Color} {source : TextureSource × Option Nat}
    (h : c.sourceOr? files path? fallback? = some source) : source.1.IsOf c there := by
  rcases Option.or_eq_some_iff.1 h with hfile | ⟨-, hcolor⟩
  · obtain ⟨found, hfound, rfl⟩ := Option.map_eq_some_iff.1 hfile
    obtain ⟨path, -, hpath⟩ := Option.bind_eq_some_iff.1 hfound
    unfold fileSource? at hpath
    split at hpath
    · rename_i entry hentry
      obtain ⟨d, hd, rfl⟩ := Option.map_eq_some_iff.1 hpath
      refine hthere _ (List.mem_append_left _ ?_)
      refine List.mem_filterMap.2 ⟨_, Ordered.mem_of_get? hentry, ?_⟩
      exact congrArg (Option.map (·.texture)) hd
    · rename_i hnone
      obtain ⟨image, -, rfl⟩ := Option.map_eq_some_iff.1 hpath
      exact hnone
  · obtain ⟨color, -, rfl⟩ := Option.map_eq_some_iff.1 hcolor
    dsimp only
    unfold colorSource
    split
    · rename_i d hd
      exact hthere _ (List.mem_append_right _ (List.mem_map_of_mem (Ordered.mem_of_get? hd)))
    · rename_i hnone
      exact hnone

/-- A texture that the cache has for such a source comes from it. -/
theorem Grown.gives (h : Grown files c₀ uses c) {there : List TextureId} {source : TextureSource}
    (hsource : source.IsOf c₀ there) {t : TextureId} (ht : source.texture? c = some t) :
    source.Gives c₀ files uses t := by
  cases source with
  | held texture => exact (Option.some.inj ht).symm
  | file key =>
    obtain ⟨d, hd, rfl⟩ := Option.map_eq_some_iff.1 ht
    obtain ⟨entry, hentry, hok⟩ := Option.bind_eq_some_iff.1 hd
    have hread := h.read key entry hsource hentry
    cases entry with
    | error e => cases hok
    | ok d' =>
      obtain rfl := Option.some.inj hok
      cases hload : c₀.load files key with
      | error e => exact (hload ▸ hread : WasRead uses (.error e) (.ok d')).elim
      | ok image =>
        obtain ⟨t, rfl, hmem⟩ := (hload ▸ hread : WasRead uses (.ok image) (.ok d'))
        exact ⟨image, hload, hmem⟩
  | color rgba =>
    obtain ⟨d, hd, rfl⟩ := Option.map_eq_some_iff.1 ht
    obtain ⟨t, rfl, hmem⟩ := h.made rgba d hsource hd
    exact hmem

theorem persists_insert {k : Path} {entry : Except ImageError ImageDescriptor} :
    c.Persists { c with entries := c.entries ++ [(k, entry)] } where
  loaders := rfl
  entries key entry hget := by rw [Ordered.get?_append, hget, Option.some_or]
  solids _ _ := id

theorem Grown.insert (h : Grown files c₀ uses c) {k : Path}
    {entry : Except ImageError ImageDescriptor}
    (hread : WasRead uses (c.load files k) entry) :
    Grown files c₀ uses { c with entries := c.entries ++ [(k, entry)] } where
  toPersists := h.toPersists.trans persists_insert
  read key entry' hnone hsome := by
    rw [Ordered.get?_append] at hsome
    cases hold : Ordered.get? key c.entries with
    | some entry'' =>
      rw [hold, Option.some_or] at hsome
      exact h.read key entry' hnone (hold.trans hsome)
    | none =>
      rw [hold, Option.none_or, Ordered.get?] at hsome
      split at hsome
      · rename_i hkey
        obtain rfl : entry = entry' := Option.some.inj hsome
        rw [← hkey, ← load_congr h.loaders]
        exact hread
      · cases hsome
  made := h.made

theorem persists_insertSolid {color : Color} {descriptor : ImageDescriptor} :
    c.Persists { c with solids := c.solids ++ [(color, descriptor)] } where
  loaders := rfl
  entries _ _ := id
  solids key entry hget := by rw [Ordered.get?_append, hget, Option.some_or]

theorem Grown.insertSolid (h : Grown files c₀ uses c) {color : Color} {t : TextureId}
    (hmade : .uploaded (Image.solid color) t ∈ uses) :
    Grown files c₀ uses
      { c with solids := c.solids ++ [(color, .ofImage (Image.solid color) t)] } where
  toPersists := h.toPersists.trans persists_insertSolid
  read := h.read
  made rgba descriptor hnone hsome := by
    rw [Ordered.get?_append] at hsome
    cases hold : Ordered.get? rgba c.solids with
    | some old =>
      rw [hold, Option.some_or] at hsome
      exact h.made rgba descriptor hnone (hold.trans hsome)
    | none =>
      rw [hold, Option.none_or, Ordered.get?] at hsome
      split at hsome
      · rename_i hcolor
        obtain rfl := Option.some.inj hsome
        exact ⟨t, hcolor ▸ rfl, hcolor ▸ hmade⟩
      · cases hsome

/-- The uses are uploads. -/
def AllUploads (uses : List Use) : Prop := ∀ use ∈ uses, ∃ image t, use = .uploaded image t

theorem writings_uploads (h : AllUploads uses) : uses.filterMap Use.writing? = [] := by
  refine List.filterMap_eq_nil_iff.2 fun use huse => ?_
  obtain ⟨image, t, rfl⟩ := h use huse
  rfl

/-- One more step of a cache that has grown: it uploads, and goes on to grow. -/
def Grows (files : FileTree) (c₀ : ImageCache) (uses : List Use)
    (before after : ImageCache × Traced δ) :
    Prop :=
  before.1.Persists after.1 ∧ ∃ uploads, after.2.uses = before.2.uses ++ uploads ∧
    AllUploads uploads ∧ Grown files c₀ (uses ++ uploads) after.1

omit [Device δ] in
theorem Grown.refl_grows (h : Grown files c₀ uses c) (d : Traced δ) :
    Grows files c₀ uses (c, d) (c, d) :=
  ⟨.refl c, [], (List.append_nil _).symm, nofun, h.mono fun _ => List.mem_append_left _⟩

omit [Device δ] in
theorem Grows.trans {before between after : ImageCache × Traced δ}
    (h : Grows files c₀ uses before between)
    (h' : ∀ uses, Grown files c₀ uses between.1 → Grows files c₀ uses between after) :
    Grows files c₀ uses before after := by
  obtain ⟨hpersists, uploads, huses, huploads, hgrown⟩ := h
  obtain ⟨hpersists', uploads', huses', huploads', hgrown'⟩ := h' _ hgrown
  refine ⟨hpersists.trans hpersists', uploads ++ uploads', ?_, fun use huse => ?_, ?_⟩
  · rw [huses', huses, List.append_assoc]
  · exact (List.mem_append.1 huse).elim (huploads use) (huploads' use)
  · rwa [← List.append_assoc]

/-- The cache grows by acquiring an image. -/
theorem Grown.acquire (h : Grown files c₀ uses c) (path : Path) (d : Traced δ) :
    Grows files c₀ uses (c, d) (c.acquire files path d).2 := by
  cases hknown : Ordered.get? (key files path) c.entries with
  | some entry =>
    rw [acquire_known hknown]
    exact h.refl_grows d
  | none =>
    cases hload : c.load files (key files path) with
    | error e =>
      rw [acquire_failed hknown hload]
      refine ⟨persists_insert, [], (List.append_nil _).symm, nofun, ?_⟩
      exact (h.mono fun _ => List.mem_append_left _).insert (hload ▸ rfl)
    | ok image =>
      rw [acquire_loaded hknown hload]
      refine ⟨persists_insert, [.uploaded image (Device.createTexture d image).1], rfl, ?_, ?_⟩
      · exact fun use huse => ⟨_, _, List.mem_singleton.1 huse⟩
      · refine (h.mono fun _ => List.mem_append_left _).insert (hload ▸ ⟨_, rfl, ?_⟩)
        exact List.mem_append_right _ (List.mem_singleton_self _)

/-- The cache grows by making a color, and has its texture then. -/
theorem Grown.solidColor (h : Grown files c₀ uses c) (color : Color) (d : Traced δ) :
    Grows files c₀ uses (c, d) (c.solidColor color d).2 ∧
      (c₀.colorSource color).texture? (c.solidColor color d).2.1 =
        some (c.solidColor color d).1.texture := by
  have hsource : ∀ {c' : ImageCache} {descriptor : ImageDescriptor}, c₀.Persists c' →
      Ordered.get? color c'.solids = some descriptor →
      (c₀.colorSource color).texture? c' = some descriptor.texture := by
    intro c' descriptor hpersists hget
    unfold colorSource
    cases hold : Ordered.get? color c₀.solids with
    | some old =>
      obtain rfl := Option.some.inj ((hpersists.solids _ _ hold).symm.trans hget)
      rfl
    | none => simp only [TextureSource.texture?, hget, Option.map_some]
  cases hknown : Ordered.get? color c.solids with
  | some descriptor =>
    rw [solidColor_known hknown]
    exact ⟨h.refl_grows d, hsource h.toPersists hknown⟩
  | none =>
    rw [solidColor_new hknown]
    have hmore : Grown files c₀ (uses ++ [.uploaded (Image.solid color)
        (Device.createTexture d (Image.solid color)).1]) c :=
      h.mono fun _ => List.mem_append_left _
    have hgrown := hmore.insertSolid (List.mem_append_right _ (List.mem_singleton_self _))
    refine ⟨⟨persists_insertSolid, [_], rfl, fun use huse => ⟨_, _, List.mem_singleton.1 huse⟩,
      hgrown⟩, hsource hgrown.toPersists ?_⟩
    rw [Ordered.get?_append, hknown, Option.none_or, Ordered.get?, if_pos rfl]

end ImageCache

/-! ## Images and colors -/

namespace Renderer

open ImageCache (Grown Grows)

section Answers

variable {δ : Type} [Device δ] {files : FileTree}

theorem imageOr_image {r r' : Renderer δ} {path : Path} {d : ImageDescriptor}
    (h : r.image files path = (.ok d, r')) (fallback? : Option Color) :
    r.imageOr files (some path) fallback? = (some (d, true), r') := by
  simp only [imageOr, h, Except.toOption]

/-- Without the image it is as if there was no file. -/
theorem imageOr_missing {r r' : Renderer δ} {path : Path} {e : ImageError}
    (h : r.image files path = (.error e, r')) (fallback? : Option Color) :
    r.imageOr files (some path) fallback? = r'.imageOr files none fallback? := by
  simp only [imageOr, h, Except.toOption]

end Answers

variable {δ : Type} [Device δ] {files : FileTree} {c₀ : ImageCache} {uses : List Use}
  {r r₁ r₂ : Renderer (Traced δ)}

/-- What is bound comes from a source: its texture is that of the source, and it is an image if the
number of mip levels is known. -/
def IsSource (c : ImageCache) (source : TextureSource × Option Nat)
    (shown : ImageDescriptor × Bool) : Prop :=
  source.1.texture? c = some shown.1.texture ∧
    source.2 = if shown.2 then some shown.1.mipCount else none

/-- Asking for a color gives what comes from its source. -/
theorem imageOr_none_grows (h : Grown files c₀ uses r.images) (fallback? : Option Color) :
    let answer := r.imageOr files none fallback?
    Grows files c₀ uses (r.images, r.device) (answer.2.images, answer.2.device) ∧
      Option.Rel (IsSource answer.2.images) (c₀.sourceOr? files none fallback?) answer.1 := by
  cases fallback? with
  | none => exact ⟨h.refl_grows r.device, .none⟩
  | some color =>
    obtain ⟨hgrows, htexture⟩ := h.solidColor color r.device
    exact ⟨hgrows, .some ⟨htexture, rfl⟩⟩

/-- Asking for an image or else a color gives what comes from its source. -/
theorem imageOr_grows (h : Grown files c₀ uses r.images) (path? : Option Path)
    (fallback? : Option Color) :
    let answer := r.imageOr files path? fallback?
    Grows files c₀ uses (r.images, r.device) (answer.2.images, answer.2.device) ∧
      Option.Rel (IsSource answer.2.images) (c₀.sourceOr? files path? fallback?) answer.1 := by
  cases path? with
  | none => exact imageOr_none_grows h fallback?
  | some path =>
    have himage : Grows files c₀ uses (r.images, r.device)
        ((r.image files path).2.images, (r.image files path).2.device) := h.acquire path r.device
    have hentry : Ordered.get? (ImageCache.key files path) (r.image files path).2.images.entries =
        some (r.image files path).1 := ImageCache.get?_acquire
    cases hanswer : r.image files path with
    | mk result r' =>
      rw [hanswer] at himage hentry
      obtain ⟨-, uploads, -, -, hgrown⟩ := id himage
      rcases hgrown.fileSource hentry with
        ⟨hsource, hresult⟩ | ⟨source, d, hsource, hresult, htexture⟩
      · cases result with
        | ok d => cases hresult
        | error e =>
          have hnone : c₀.sourceOr? files (some path) fallback? =
              c₀.sourceOr? files none fallback? := by
            simp only [ImageCache.sourceOr?, Option.bind_some, hsource, Option.bind_none]
          rw [imageOr_missing hanswer, hnone]
          exact ⟨himage.trans fun _ h => (imageOr_none_grows h fallback?).1,
            (imageOr_none_grows hgrown fallback?).2⟩
      · obtain rfl : result = .ok d := hresult
        have hsome : c₀.sourceOr? files (some path) fallback? = some (source, some d.mipCount) := by
          simp only [ImageCache.sourceOr?, Option.bind_some, hsource, Option.map_some,
            Option.some_or]
        rw [imageOr_image hanswer, hsome]
        exact ⟨himage, .some ⟨htexture, rfl⟩⟩

end Renderer

/-! ## Instructions -/

/-- The content with other words for textures. -/
def Content.map {τ τ' : Type} (f : τ → τ') : Content τ → Content τ'
  | value v => .value v
  | texture t => .texture (f t)

/-- The content is told right, if the cache has the textures of sources by now. -/
def Content.Is (c : ImageCache) : Content TextureSource → Content TextureId → Prop
  | value v, value v' => v' = v
  | texture source, texture t => source.texture? c = some t
  | _, _ => False

/-- The writings are told right. -/
def Realized (c : ImageCache) :
    List (Place × Content TextureSource) → List (Place × Content TextureId) → Prop :=
  List.Forall₂ fun w w' => w.1 = w'.1 ∧ Content.Is c w.2 w'.2

/-- What a use writes, with textures that are there. -/
def Use.heldWriting? (use : Use) : Option (Place × Content TextureSource) :=
  use.writing?.map fun w => (w.1, w.2.map .held)

/-- What is written by giving a sampler what comes from a source. -/
def Instruction.told (program : ProgramId) (uniform : String) (unit : Nat) (levels? : Option String)
    (source : TextureSource × Option Nat) : List (Place × Content TextureSource) :=
  [(.unit unit, .texture source.1), (.uniform program uniform, .value (.sampler unit))] ++
    (levels?.bind fun name => source.2.map fun mips =>
      (.uniform program name, .value (.count mips))).toList

/-- What an instruction writes, told from the cache and the files before. -/
def Instruction.writings (c₀ : ImageCache) (files : FileTree) :
    Instruction → List (Place × Content TextureSource)
  | command c => (Use.heldWriting? (.performed c)).toList
  | sampler program uniform unit path? fallback? levels? =>
    (c₀.sourceOr? files path? fallback?).elim [] (told program uniform unit levels?)

theorem Instruction.writings_sampler (c₀ : ImageCache) (files : FileTree) (program : ProgramId)
    (uniform : String) (unit : Nat) (path? : Option Path) (fallback? : Option Color)
    (levels? : Option String) :
    (sampler program uniform unit path? fallback? levels?).writings c₀ files =
      (c₀.sourceOr? files path? fallback?).elim [] (told program uniform unit levels?) := rfl

/-- What a script writes. -/
def Instruction.allWritings (c₀ : ImageCache) (files : FileTree) (script : List Instruction) :
    List (Place × Content TextureSource) :=
  script.flatMap (Instruction.writings c₀ files)

section Writes

open ImageCache (Grown)

theorem TextureSource.texture?_mono {c c' : ImageCache} (h : c.Persists c')
    {source : TextureSource} {t : TextureId} (ht : source.texture? c = some t) :
    source.texture? c' = some t := by
  cases source with
  | held texture => exact ht
  | file key =>
    obtain ⟨d, hd, rfl⟩ := Option.map_eq_some_iff.1 ht
    obtain ⟨entry, hentry, hok⟩ := Option.bind_eq_some_iff.1 hd
    simp only [texture?, h.entries key entry hentry, Option.bind_some, hok, Option.map_some]
  | color rgba =>
    obtain ⟨d, hd, rfl⟩ := Option.map_eq_some_iff.1 ht
    simp only [texture?, h.solids rgba d hd, Option.map_some]

/-- A value is told as it is, and a texture by its source. -/
theorem Content.Is.eq_or {c : ImageCache} {told : Content TextureSource}
    {content : Content TextureId} (htold : Content.Is c told content) :
    (∃ v, told = .value v ∧ content = .value v) ∨
      ∃ source t, told = .texture source ∧ content = .texture t ∧ source.texture? c = some t := by
  cases told with
  | value v =>
    cases content with
    | value w =>
      obtain rfl : w = v := htold
      exact .inl ⟨w, rfl, rfl⟩
    | texture t => exact htold.elim
  | texture source =>
    cases content with
    | value w => exact htold.elim
    | texture t => exact .inr ⟨source, t, rfl, rfl, htold⟩

theorem Content.Is.mono {c c' : ImageCache} (h : c.Persists c') {told : Content TextureSource}
    {content : Content TextureId} (htold : Content.Is c told content) :
    Content.Is c' told content := by
  rcases htold.eq_or with ⟨v, rfl, rfl⟩ | ⟨source, t, rfl, rfl, ht⟩
  · exact htold
  · exact TextureSource.texture?_mono h ht

theorem Realized.mono {c c' : ImageCache} (h : c.Persists c')
    {told : List (Place × Content TextureSource)} {writings : List (Place × Content TextureId)}
    (htold : Realized c told writings) : Realized c' told writings :=
  htold.imp fun _ _ hw => ⟨hw.1, hw.2.mono h⟩

theorem Realized.append {c : ImageCache} {told told' : List (Place × Content TextureSource)}
    {writings writings' : List (Place × Content TextureId)}
    (h : Realized c told writings) (h' : Realized c told' writings') :
    Realized c (told ++ told') (writings ++ writings') := List.rel_append h h'

theorem realized_held (c : ImageCache) (uses : List Use) :
    Realized c (uses.filterMap Use.heldWriting?) (uses.filterMap Use.writing?) := by
  have hmap : uses.filterMap Use.heldWriting? =
      (uses.filterMap Use.writing?).map fun w => (w.1, w.2.map .held) := by
    rw [List.map_filterMap]
    rfl
  rw [hmap]
  refine List.forall₂_map_left_iff.2 (List.forall₂_same.2 fun w _ => ⟨rfl, ?_⟩)
  obtain ⟨place, content⟩ := w
  cases content <;> rfl

variable {δ : Type} [Device δ] {files : FileTree} {c₀ : ImageCache} {uses : List Use}
  {r r₁ r₂ : Renderer (Traced δ)} {told told' : List (Place × Content TextureSource)}

/-- On the way from the first renderer to the second just this is written, while the cache goes on
to grow. -/
def Renderer.Writes (files : FileTree) (c₀ : ImageCache) (uses : List Use)
    (r r' : Renderer (Traced δ)) (told : List (Place × Content TextureSource)) : Prop :=
  r.images.Persists r'.images ∧ ∃ more, r'.device.uses = r.device.uses ++ more ∧
    Grown files c₀ (uses ++ more) r'.images ∧
    Realized r'.images told (more.filterMap Use.writing?)

omit [Device δ] in
theorem Renderer.Writes.trans (h : Writes files c₀ uses r r₁ told)
    (h' : ∀ uses, Grown files c₀ uses r₁.images → Writes files c₀ uses r₁ r₂ told') :
    Writes files c₀ uses r r₂ (told ++ told') := by
  obtain ⟨hpersists, more, huses, hgrown, hrealized⟩ := h
  obtain ⟨hpersists', more', huses', hgrown', hrealized'⟩ := h' _ hgrown
  refine ⟨hpersists.trans hpersists', more ++ more', ?_, ?_, ?_⟩
  · rw [huses', huses, List.append_assoc]
  · rwa [← List.append_assoc]
  · rw [List.filterMap_append]
    exact (hrealized.mono hpersists').append hrealized'

/-- Commands write what they say. -/
theorem Renderer.writes_performAll (h : Grown files c₀ uses r.images) (commands : List Command)
    (htold : Realized r.images told (commands.filterMap fun c => Use.writing? (.performed c))) :
    Renderer.Writes files c₀ uses r (commands.foldl Renderer.perform r) told := by
  rw [Renderer.foldl_perform_eq]
  refine ⟨.refl _, commands.map .performed, ?_, h.mono fun _ => List.mem_append_left _, ?_⟩
  · rw [Traced.foldl_perform]
  · rwa [List.filterMap_map]

theorem Instruction.run_writes (h : Grown files c₀ uses r.images) (i : Instruction) :
    Renderer.Writes files c₀ uses r (i.run files r) (i.writings c₀ files) := by
  cases i with
  | command c =>
    refine Renderer.writes_performAll h [c] ?_
    have hheld := realized_held r.images [.performed c]
    unfold Instruction.writings
    cases hwriting : Use.writing? (.performed c) with
    | none => simpa [Use.heldWriting?, hwriting] using hheld
    | some w => simpa [Use.heldWriting?, hwriting] using hheld
  | sampler program uniform unit path? fallback? levels? =>
    rw [run_sampler]
    obtain ⟨⟨hpersists, uploads, huses, huploads, hgrown⟩, hsource⟩ :=
      Renderer.imageOr_grows h path? fallback?
    have hasked : Renderer.Writes files c₀ uses r (r.imageOr files path? fallback?).2 [] :=
      ⟨hpersists, uploads, huses, hgrown, by rw [ImageCache.writings_uploads huploads]; exact .nil⟩
    refine hasked.trans fun uses h => Renderer.writes_performAll h _ ?_
    show Realized _ ((c₀.sourceOr? files path? fallback?).elim [] _) _
    generalize c₀.sourceOr? files path? fallback? = source? at hsource ⊢
    generalize (r.imageOr files path? fallback?).2 = r' at hsource ⊢
    generalize (r.imageOr files path? fallback?).1 = shown? at hsource ⊢
    cases hsource with
    | none => exact .nil
    | @some source shown hshown =>
      obtain ⟨source, mips?⟩ := source
      obtain ⟨d, isImage⟩ := shown
      obtain ⟨htexture, rfl⟩ := hshown
      refine .cons ⟨rfl, htexture⟩ (.cons ⟨rfl, rfl⟩ ?_)
      cases levels? with
      | none => exact .nil
      | some name =>
        cases isImage with
        | false => exact .nil
        | true => exact .cons ⟨rfl, rfl⟩ .nil

/-- A script writes what is told of it from the cache and the files before. -/
theorem Instruction.runAll_writes (h : Grown files c₀ uses r.images) (script : List Instruction) :
    Renderer.Writes files c₀ uses r (runAll files script r) (allWritings c₀ files script) := by
  induction script generalizing r uses with
  | nil => exact Renderer.writes_performAll h [] .nil
  | cons i rest ih =>
    exact (i.run_writes h).trans fun uses h => ih h

end Writes

end MaterialViewer
