import MaterialViewer.Device.Headless
import MaterialViewer.Image.Cache
import MaterialViewer.Proofs.Device.Traced

/-!
# Proofs: the image cache

What a sequence of calls of the cache leaves behind, on a device of any kind and with any readers,
while files come and go between the calls: the textures that were created and not given up are those
that the cache owns, and the entry of a file stays until it is dropped.

One call is looked at first, from which the sequences follow by induction.
-/

namespace MaterialViewer

namespace ImageCache

variable {δ : Type} [Device δ] {c : ImageCache} {d : δ} {files : FileTree} {path : Path}
  {entry : Except ImageError ImageDescriptor} {image : Image} {e : ImageError} {color : Color}

/-! ## One call -/

/-- A path with an entry has the result of the entry; no reader is asked. -/
theorem acquire_known (h : Ordered.get? (key files path) c.entries = some entry) :
    c.acquire files path d = (entry, c, d) := by
  simp only [acquire, h]

/-- A file without an entry that can be read is uploaded. -/
theorem acquire_loaded (h : Ordered.get? (key files path) c.entries = none)
    (hload : c.load files (key files path) = .ok image) :
    c.acquire files path d =
      let upload := Device.createTexture d image
      let entry := .ok (.ofImage image upload.1)
      (entry, { c with entries := c.entries ++ [(key files path, entry)] }, upload.2) := by
  simp only [acquire, h, hload, Ordered.put_of_get?_eq_none h]

/-- A file without an entry that cannot be read has an entry afterwards, and no texture. -/
theorem acquire_failed (h : Ordered.get? (key files path) c.entries = none)
    (hload : c.load files (key files path) = .error e) :
    c.acquire files path d =
      (.error e, { c with entries := c.entries ++ [(key files path, .error e)] }, d) := by
  simp only [acquire, h, hload, Ordered.put_of_get?_eq_none h]

theorem solidColor_known {descriptor : ImageDescriptor}
    (h : Ordered.get? color c.solids = some descriptor) :
    c.solidColor color d = (descriptor, c, d) := by
  simp only [solidColor, h]

theorem solidColor_new (h : Ordered.get? color c.solids = none) :
    c.solidColor color d =
      let upload := Device.createTexture d (Image.solid color)
      let descriptor := .ofImage (Image.solid color) upload.1
      (descriptor, { c with solids := c.solids ++ [(color, descriptor)] }, upload.2) := by
  simp only [solidColor, h, Ordered.put_of_get?_eq_none h]

/-- The result of an acquisition is the entry afterwards. -/
theorem get?_acquire : Ordered.get? (key files path) (c.acquire files path d).2.1.entries =
    some (c.acquire files path d).1 := by
  cases h : Ordered.get? (key files path) c.entries with
  | some entry => rw [acquire_known h, h]
  | none =>
    unfold acquire
    simp only [h, Ordered.get?_put_self]

/-- What a call leaves under the other keys. -/
theorem get?_acquire_of_ne {k : Path} (hk : k ≠ key files path) :
    Ordered.get? k (c.acquire files path d).2.1.entries = Ordered.get? k c.entries := by
  cases h : Ordered.get? (key files path) c.entries with
  | some entry => rw [acquire_known h]
  | none =>
    unfold acquire
    simp only [h, Ordered.get?_put_of_ne hk]

theorem entries_solidColor : (c.solidColor color d).2.1.entries = c.entries := by
  cases h : Ordered.get? color c.solids with
  | some descriptor => rw [solidColor_known h]
  | none => rw [solidColor_new h]

/-- Textures that are given up one after the other. -/
theorem foldl_release (released : List TextureId) (d : δ) :
    released.foldl release d = (released.map Command.releaseTexture).foldl Device.perform d := by
  rw [List.foldl_map]
  rfl

/-! ## Accounts -/

/-- There is one entry for a key, and the textures that were created are accounted for. -/
structure Balanced (c : ImageCache) (d : Traced δ) : Prop where
  keys : (c.entries.map Prod.fst).Nodup
  accounts : Accounted d.newTextures d.lostTextures c.textures

variable {d : Traced δ}

theorem nodup_keys_append {k : Path} (hkeys : (c.entries.map Prod.fst).Nodup)
    (h : Ordered.get? k c.entries = none) :
    ((c.entries ++ [(k, entry)]).map Prod.fst).Nodup := by
  rw [List.map_append, List.nodup_append]
  refine ⟨hkeys, by simp, fun a ha b hb hab => ?_⟩
  obtain rfl : b = k := by simpa using hb
  exact Ordered.get?_eq_none_iff.1 h (hab ▸ ha)

theorem Balanced.acquire (h : c.Balanced d) :
    (c.acquire files path d).2.1.Balanced (c.acquire files path d).2.2 := by
  cases hknown : Ordered.get? (key files path) c.entries with
  | some entry =>
    rw [acquire_known hknown]
    exact h
  | none =>
    cases hload : c.load files (key files path) with
    | error e =>
      rw [acquire_failed hknown hload]
      refine ⟨nodup_keys_append h.keys hknown, ?_⟩
      have htextures : ({ c with entries := c.entries ++ [(key files path, .error e)] } :
          ImageCache).textures = c.textures := by simp [textures, Except.toOption]
      simp only [htextures]
      exact h.accounts
    | ok image =>
      rw [acquire_loaded hknown hload]
      refine ⟨nodup_keys_append h.keys hknown, ?_⟩
      simp only [Traced.newTextures_upload, Traced.lostTextures_upload]
      refine h.accounts.create ?_
      simp only [textures, List.filterMap_append, List.append_assoc]
      exact List.perm_append_comm.append_left _

theorem Balanced.solidColor (h : c.Balanced d) :
    (c.solidColor color d).2.1.Balanced (c.solidColor color d).2.2 := by
  cases hknown : Ordered.get? color c.solids with
  | some descriptor =>
    rw [solidColor_known hknown]
    exact h
  | none =>
    rw [solidColor_new hknown]
    refine ⟨h.keys, ?_⟩
    simp only [Traced.newTextures_upload, Traced.lostTextures_upload]
    refine h.accounts.create ?_
    simp [textures, ImageDescriptor.ofImage]

theorem Balanced.release {c' : ImageCache} (h : c.Balanced d) (released : List TextureId)
    (hkeys : (c'.entries.map Prod.fst).Nodup)
    (htextures : c.textures.Perm (released ++ c'.textures)) :
    c'.Balanced (released.foldl ImageCache.release d) := by
  refine ⟨hkeys, ?_⟩
  rw [foldl_release, Traced.newTextures_foldl, Traced.lostTextures_release]
  exact h.accounts.release htextures

theorem Balanced.invalidate (h : c.Balanced d) :
    (c.invalidate files path d).1.Balanced (c.invalidate files path d).2 := by
  have hdrop (released : List TextureId) : c.textures.Perm
        (released ++ { c with entries := Ordered.erase (key files path) c.entries }.textures) →
      (c.invalidate files path d).1.Balanced (released.foldl ImageCache.release d) :=
    h.release released (h.keys.sublist (List.filter_sublist.map _))
  cases hknown : Ordered.get? (key files path) c.entries with
  | none =>
    have hd : (c.invalidate files path d).2 = d := by simp only [ImageCache.invalidate, hknown]
    rw [hd]
    exact hdrop [] (by simp [textures, Ordered.erase_of_get?_eq_none hknown])
  | some entry =>
    have hentries := Ordered.perm_cons_erase hknown h.keys
    cases entry with
    | error e =>
      have hd : (c.invalidate files path d).2 = d := by simp only [ImageCache.invalidate, hknown]
      rw [hd]
      exact hdrop [] ((hentries.filterMap _).append_right _)
    | ok descriptor =>
      have hd : (c.invalidate files path d).2 = ImageCache.release d descriptor.texture := by
        simp only [ImageCache.invalidate, hknown]
      rw [hd]
      exact hdrop [descriptor.texture] ((hentries.filterMap _).append_right _)

theorem Balanced.clear (h : c.Balanced d) : (c.clear d).1.Balanced (c.clear d).2 :=
  h.release c.textures List.nodup_nil (by rw [show (c.clear d).1.textures = [] from rfl,
    List.append_nil])

end ImageCache

/-! ## Sequences of calls -/

/-- A call of the cache; where it names a file, with the files at that time. -/
inductive ImageCall
  /-- Ask for an image. -/
  | acquire (files : FileTree) (path : Path)
  /-- Ask for a solid color. -/
  | solidColor (color : Color)
  /-- Drop the entry of a file. -/
  | invalidate (files : FileTree) (path : Path)
  /-- Drop everything. -/
  | clear

namespace ImageCall

variable {δ : Type} [Device δ]

/-- Make a call. -/
def run (call : ImageCall) (c : ImageCache) (d : δ) : ImageCache × δ :=
  match call with
  | acquire files path => (c.acquire files path d).2
  | solidColor color => (c.solidColor color d).2
  | invalidate files path => c.invalidate files path d
  | clear => c.clear d

/-- Make calls one after the other. -/
def runAll (calls : List ImageCall) (c : ImageCache) (d : δ) : ImageCache × δ :=
  calls.foldl (fun s call => call.run s.1 s.2) (c, d)

/-- The call drops the entry under a key. -/
def Drops (k : Path) : ImageCall → Prop
  | invalidate files path => ImageCache.key files path = k
  | clear => True
  | _ => False

variable {c : ImageCache} {calls : List ImageCall}

theorem balanced_runAll {d : Traced δ} (h : c.Balanced d) :
    (runAll calls c d).1.Balanced (runAll calls c d).2 := by
  induction calls generalizing c d with
  | nil => exact h
  | cons call rest ih =>
    have hcall : (call.run c d).1.Balanced (call.run c d).2 := by
      cases call with
      | acquire files path => exact h.acquire
      | solidColor color => exact h.solidColor
      | invalidate files path => exact h.invalidate
      | clear => exact h.clear
    exact ih hcall

/-- An entry stays until it is dropped. -/
theorem get?_runAll {d : δ} {k : Path} {entry : Except ImageError ImageDescriptor}
    (h : Ordered.get? k c.entries = some entry) (hkeep : ∀ call ∈ calls, ¬ call.Drops k) :
    Ordered.get? k (runAll calls c d).1.entries = some entry := by
  induction calls generalizing c d with
  | nil => exact h
  | cons call rest ih =>
    have hcall : Ordered.get? k (call.run c d).1.entries = some entry := by
      have hdrop := hkeep call List.mem_cons_self
      cases call with
      | acquire files path =>
        by_cases hk : k = ImageCache.key files path
        · subst hk
          rw [run, ImageCache.acquire_known h]
          exact h
        · rw [run, ImageCache.get?_acquire_of_ne hk]
          exact h
      | solidColor color =>
        rw [run, ImageCache.entries_solidColor]
        exact h
      | invalidate files path =>
        rw [run, ImageCache.invalidate, Ordered.get?_erase_of_ne (Ne.symm hdrop)]
        exact h
      | clear => exact absurd trivial hdrop
    exact ih hcall fun call hmem => hkeep call (List.mem_cons_of_mem _ hmem)

/-- A trace changes nothing. -/
theorem runAll_device (calls : List ImageCall) (c : ImageCache) (d : Traced δ) :
    runAll calls c d.device = ((runAll calls c d).1, (runAll calls c d).2.device) := by
  induction calls generalizing c d with
  | nil => rfl
  | cons call rest ih =>
    have hcall : call.run c d.device = ((call.run c d).1, (call.run c d).2.device) := by
      cases call with
      | acquire files path =>
        simp only [run, ImageCache.acquire]
        cases Ordered.get? (ImageCache.key files path) c.entries with
        | some entry => rfl
        | none => cases c.load files (ImageCache.key files path) <;> rfl
      | solidColor color =>
        simp only [run, ImageCache.solidColor]
        cases Ordered.get? color c.solids <;> rfl
      | invalidate files path =>
        simp only [run, ImageCache.invalidate]
        rcases Ordered.get? (ImageCache.key files path) c.entries with _ | _ | descriptor <;> rfl
      | clear =>
        simp only [run, ImageCache.clear, ImageCache.foldl_release, Traced.foldl_perform d]
    show runAll rest (call.run c d.device).1 (call.run c d.device).2 = _
    rw [hcall]
    exact ih _ _

/-- Whatever is called, from an empty cache on a device that hands out each texture once. The
textures that were created and not given up are those that the cache owns; it owns none twice, and
none was given up twice. After a file was acquired, and as long as its entry is not dropped, any
path of the file gives the same result, whether it is an image or an error; neither the cache nor
the device changes, and no reader is asked, so that any readers could stand in. -/
theorem runAll_accounts (loaders : List ImageLoader) (d : δ) (calls : List ImageCall)
    (hfresh : (runAll calls { loaders } (Traced.start d)).2.newTextures.Nodup) :
    let s := runAll calls { loaders } (Traced.start d)
    (∀ t, t ∈ s.1.textures ↔ t ∈ s.2.newTextures ∧ t ∉ s.2.lostTextures) ∧
      s.1.textures.Nodup ∧ s.2.lostTextures.Nodup ∧
      ∀ files path between files' path',
        ImageCache.key files' path' = ImageCache.key files path →
        (∀ call ∈ between, ¬ call.Drops (ImageCache.key files path)) →
        let first := s.1.acquire files path s.2
        let s' := runAll between first.2.1 first.2.2
        ∀ loaders', ({ s'.1 with loaders := loaders' }).acquire files' path' s'.2 =
          (first.1, { s'.1 with loaders := loaders' }, s'.2) := by
  intro s
  have hbalanced : s.1.Balanced s.2 := balanced_runAll ⟨List.nodup_nil, .refl _⟩
  obtain ⟨howned, hone, honce⟩ := hbalanced.accounts.exact hfresh
  refine ⟨howned, hone, honce, ?_⟩
  intro files path between files' path' hkey hkeep first s' loaders'
  refine ImageCache.acquire_known ?_
  rw [hkey]
  exact get?_runAll ImageCache.get?_acquire hkeep

namespace Sample

/-- A reader that takes every picture for a black pixel. -/
def loader : ImageLoader := ⟨["png"], fun _ _ => .ok (Image.solid .opaqueBlack)⟩

/-- A tree with one picture. -/
def files : FileTree := ⟨[], [[]], [(["wood.png"], ⟨#[]⟩)]⟩

/-- The tree in which a second picture has appeared. -/
def laterFiles : FileTree := files.insertFile ["bark.png"] ⟨#[]⟩

/-- A picture that is there, one that is not, a color, and the first picture dropped. -/
def fourCalls : List ImageCall :=
  [acquire files ⟨"/wood.png"⟩, acquire files ⟨"/bark.png"⟩, solidColor .opaqueBlack,
    invalidate files ⟨"/./wood.png"⟩]

end Sample

open Sample in
/-- Of two textures one was given up; a picture that was missing stays missing although it has
appeared since. -/
theorem runAll_accounts_sample :
    let s := runAll fourCalls { loaders := [loader] } (Traced.start ({} : Headless))
    let first := s.1.acquire files ⟨"bark.png"⟩ s.2
    let s' := runAll [acquire laterFiles ⟨"wood.png"⟩] first.2.1 first.2.2
    s.2.newTextures = [⟨1⟩, ⟨2⟩] ∧ s.2.lostTextures = [⟨1⟩] ∧
      (∀ t, t ∈ s.1.textures ↔ t ∈ s.2.newTextures ∧ t ∉ s.2.lostTextures) ∧
      first.1.toOption = none ∧
      s'.1.acquire laterFiles ⟨"/./bark.png"⟩ s'.2 = (first.1, s'.1, s'.2) := by
  intro s first s'
  have hnew : s.2.newTextures = [⟨1⟩, ⟨2⟩] := by decide +kernel
  have hfresh : s.2.newTextures.Nodup := by rw [hnew]; decide
  obtain ⟨howned, -, -, hagain⟩ := runAll_accounts [loader] ({} : Headless) fourCalls hfresh
  refine ⟨hnew, by decide +kernel, howned, by decide +kernel, ?_⟩
  refine hagain files ⟨"bark.png"⟩ [acquire laterFiles ⟨"wood.png"⟩] laterFiles ⟨"/./bark.png"⟩
    (by decide +kernel) ?_ s'.1.loaders
  intro call hcall
  obtain rfl := List.mem_singleton.1 hcall
  exact id

end ImageCall

end MaterialViewer
