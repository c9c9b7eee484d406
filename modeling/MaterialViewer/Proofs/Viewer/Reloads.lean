import MaterialViewer.Proofs.Viewer.Frames
import MaterialViewer.Proofs.Viewer.Single

/-!
# Proofs: textures after a reload

A reload drops the images that were looked up for the materials of the scene before it. So whatever is
put on a unit from then on, and until files change, has the picture of its file as it is, read since;
but what was in the cache for another document, and dropped by nobody, stays old. As long as at most
one document has been loaded there is nothing of the sort.
-/

namespace MaterialViewer.Session

open Renderer (Draws Issues Current)

variable {δ : Type} [Device δ] {s s' : Session (Traced δ)} {files : FileTree} {start : Nat}
  {old : OldEntries} {scene : Scene} {m : Material} {i : Nat} {r : Renderer (Traced δ)} {n : Nat}

/-! ## A reload -/

/-- What is in the cache under a key that is not that of a file that was looked up for a material of
the scene. -/
def Unreferenced (s : Session (Traced δ)) (files : FileTree) : OldEntries := fun key entry =>
  Ordered.get? key s.renderer.images.entries = some entry ∧
    ∀ scene, s.scene? = some scene →
      key ∉ (scene.materials.flatMap Material.imageFiles).map (ImageCache.key files)

/-- After a reload only what no material had looked up is old. -/
theorem supplies_of_reload (hs : s.renderer.Standard) (h : s.reload files = (.ok (), s')) :
    s'.renderer.Current files s.renderer.device.uses.length (s.Unreferenced files) ∧
      s.Supplies files s.renderer.device.uses.length (s.Unreferenced files) s' := by
  rcases s.reload_moves files with
    ⟨e, r, hreload, -⟩ | ⟨old, scene, m, r, s₁, hold, hprepared, hpresents, hreload⟩
  · cases (Prod.mk.inj (hreload.symm.trans h)).1
  · obtain rfl := (Prod.mk.inj (hreload.symm.trans h)).2
    have hcompiles := hprepared.compiles
    have hdropped := r.issues_foldl_invalidate (old.materials.flatMap Material.imageFiles) files
    have hcurrent := (hcompiles.current (hs.current files)).foldl_invalidate
      (old.materials.flatMap Material.imageFiles)
    have hfresh : Current files s.renderer.device.uses.length (s.Unreferenced files)
        ((old.materials.flatMap Material.imageFiles).foldl (·.invalidate files ·) r) := by
      refine ⟨hcurrent.toStandard, hcurrent.started, fun key entry hget => ?_⟩
      refine (hcurrent.entries key entry hget).imp_left fun hentry => ⟨hentry, ?_⟩
      intro scene' hscene'
      obtain rfl := Option.some.inj (hold.symm.trans hscene')
      rw [Renderer.get?_foldl_invalidate] at hget
      split at hget
      · cases hget
      · assumption
    obtain ⟨hcurrent', hissues⟩ := hpresents.supplies hprepared.lt_length hfresh
    have hsupplies : s.Supplies files s.renderer.device.uses.length (s.Unreferenced files) s₁ := by
      refine Issues.trans (hcompiles.issues.mono fun _ huse => (putsNothing_compiled huse).isSupplied _) ?_
      exact (hdropped.mono fun _ huse => (putsNothing_release huse).isSupplied _).trans hissues
    exact ⟨hcurrent'.purge _, hsupplies.purge hcurrent' _⟩

/-! ## Runs -/

/-- The session comes about by operations, with this number of documents loaded. The files may be any
at each of them, but the working directory is always the same. -/
inductive Run (wd : Location) : Nat → Session (Traced δ) → Prop
  | start {settings : Settings} {device : δ} {files : FileTree} {s : Session (Traced δ)}
      (h : Session.start settings (Traced.start device) files = .ok s) : Run wd 0 s
  | perform {n : Nat} {s : Session (Traced δ)} (h : Run wd n s) {files : FileTree}
      (hfiles : files.workingDirectory = wd) (op : Operation) :
      Run wd (n + op.loads (s.perform files op).1) (s.perform files op).2

/-- Every file in the cache was looked up for a material of the scene. -/
def Covered (wd : Location) (s : Session (Traced δ)) : Prop :=
  ∀ key, (Ordered.get? key s.renderer.images.entries).isSome = true →
    ∃ scene path, s.scene? = some scene ∧ path ∈ scene.materials.flatMap Material.imageFiles ∧
      key = path.normalize wd

variable {wd : Location}

/-- A material that was looked up for before and is shown keeps its files. -/
theorem Presents.imageFiles (h : s.Presents files scene i m r s')
    (hkept : ∀ old, scene.materials[i]? = some old → ∀ b, old.binding? = some b → m = old)
    {path : Path} (hpath : path ∈ scene.materials.flatMap Material.imageFiles) :
    ∃ scene', s'.scene? = some scene' ∧ path ∈ scene'.materials.flatMap Material.imageFiles := by
  obtain ⟨b, b', r', hb, hfinds, -, rfl⟩ := h
  refine ⟨_, rfl, ?_⟩
  obtain ⟨old, hold, hfound⟩ := List.mem_flatMap.1 hpath
  obtain ⟨j, hj, rfl⟩ := List.getElem_of_mem hold
  by_cases hij : i = j
  · subst hij
    have hget := List.getElem?_eq_getElem hj
    cases hbinding : scene.materials[i].binding? with
    | none =>
      unfold Material.imageFiles at hfound
      rw [hbinding] at hfound
      cases hfound
    | some b₀ =>
      obtain rfl := hkept _ hget b₀ hbinding
      obtain rfl := Option.some.inj (hb.symm.trans hbinding)
      unfold Material.imageFiles at hfound
      rw [hb] at hfound
      have hmem : (scene.materials[i].withBound b') ∈
          (scene.put i (scene.materials[i].withBound b')).materials :=
        List.mem_of_getElem? (List.getElem?_set_self hj)
      exact exists_mem_imageFiles hmem rfl (hfinds.hasFound hfound)
  · refine List.mem_flatMap.2 ⟨scene.materials[j], ?_, hfound⟩
    refine List.mem_of_getElem? (i := j) ?_
    show (scene.materials.set i _)[j]? = _
    rw [List.getElem?_set_ne hij, List.getElem?_eq_getElem hj]

omit [Device δ] in
theorem Covered.of_none (h : Covered wd s) (hscene : s.scene? = none) {key : Path} :
    (Ordered.get? key s.renderer.images.entries).isSome = false := by
  refine Bool.eq_false_iff.2 fun hkey => ?_
  obtain ⟨scene, -, hsome, -⟩ := h key hkey
  cases hscene.symm.trans hsome

/-- A document that is loaded into a session without a scene, and every other operation, leaves no
file in the cache that was not looked up. -/
theorem Moves.covered (h : Moves files s n s') (hfiles : files.workingDirectory = wd)
    (hs : Covered wd s) (hn : n ≠ 0 → s.scene? = none) : Covered wd s' := by
  have hkey : ∀ path, ImageCache.key files path = path.normalize wd := fun path => by
    rw [ImageCache.key_eq, hfiles]
  have hnew : ∀ {s₁ : Session (Traced δ)} {key : Path}, (∃ scene path, s₁.scene? = some scene ∧
      path ∈ scene.materials.flatMap Material.imageFiles ∧ key = ImageCache.key files path) →
      ∃ scene path, s₁.scene? = some scene ∧
        path ∈ scene.materials.flatMap Material.imageFiles ∧ key = path.normalize wd := by
    rintro s₁ key ⟨scene, path, hscene, hpath, rfl⟩
    exact ⟨scene, path, hscene, hpath, hkey path⟩
  cases h with
  | asked hcompiles =>
    intro key hentry
    exact hs key (by rwa [← hcompiles.images])
  | loaded hprepared hpresents =>
    intro key hentry
    rcases hpresents.covered hprepared.lt_length hentry with hold | hfound
    · rw [hprepared.compiles.images, hs.of_none (hn Nat.one_ne_zero)] at hold
      cases hold
    · exact hnew hfound
  | @reloaded old scene m r s' hold hprepared hpresents =>
    intro key hentry
    rcases hpresents.covered hprepared.lt_length hentry with hleft | hfound
    · rw [Renderer.get?_foldl_invalidate, hprepared.compiles.images] at hleft
      split at hleft
      · cases hleft
      · -- all files that were in the cache are dropped
        rename_i hnot
        obtain ⟨scene', path, hscene', hpath, rfl⟩ := hs key hleft
        obtain rfl := Option.some.inj (hold.symm.trans hscene')
        exact (hnot (List.mem_map.2 ⟨path, hpath, hkey path⟩)).elim
    · exact hnew hfound
  | @shown scene i m r s' hscene hreadied hkept hpresents =>
    intro key hentry
    obtain ⟨old, hmem, -⟩ := id hreadied
    rcases hpresents.covered (List.getElem?_eq_some_iff.1 hmem).1 hentry with hleft | hfound
    · rw [hreadied.compiles.images] at hleft
      obtain ⟨scene', path, hscene', hpath, rfl⟩ := hs key hleft
      obtain rfl := Option.some.inj (hscene.symm.trans hscene')
      obtain ⟨shown, hshown, hstill⟩ := hpresents.imageFiles hkept hpath
      exact ⟨shown, path, hshown, hstill, rfl⟩
    · exact hnew hfound
  | dropped path =>
    intro key hentry
    rw [Renderer.get?_invalidate] at hentry
    split at hentry
    · cases hentry
    · exact hs key hentry

/-- Without a document that is loaded there is no scene. -/
theorem Moves.scene?_eq_none (h : Moves files s 0 s') (hs : s.scene? = none) : s'.scene? = none := by
  cases h with
  | asked | dropped => exact hs
  | reloaded hold => cases hs.symm.trans hold
  | shown hscene => cases hs.symm.trans hscene

/-- A document that is loaded counts. -/
theorem Run.load (h : Run wd n s) (hfiles : files.workingDirectory = wd) {path : Path}
    (hload : s.load files path = (.ok (), s')) : Run wd (n + 1) s' := by
  have hperform := h.perform hfiles (.load path)
  have hresult : s.perform files (.load path) = (.ok (), s') := hload
  rwa [hresult] at hperform

theorem Run.standard (h : Run wd n s) : s.renderer.Standard := by
  induction h with
  | start h =>
    rw [(start_eq h).2.1]
    exact ⟨rfl, fun color d hget => nomatch hget⟩
  | @perform n s h files hfiles op ih =>
    exact ((s.perform_moves files op).supplies (ih.current files)).1.toStandard

/-- As long as at most one document has been loaded, every file in the cache was looked up for a
material of the scene. -/
theorem Run.covered (h : Run wd n s) (hn : n ≤ 1) :
    Covered wd s ∧ (n = 0 → s.scene? = none) := by
  induction h with
  | start h =>
    obtain ⟨-, hrenderer, hscene⟩ := start_eq h
    refine ⟨fun key hentry => ?_, fun _ => hscene⟩
    rw [hrenderer] at hentry
    cases hentry
  | @perform n s h files hfiles op ih =>
    obtain ⟨hcovered, hnone⟩ := ih (Nat.le_of_add_right_le hn)
    have hmoves := s.perform_moves files op
    refine ⟨hmoves.covered hfiles hcovered fun hloads => hnone (by omega), fun hzero => ?_⟩
    obtain ⟨hbefore, hloads⟩ := Nat.add_eq_zero_iff.1 hzero
    rw [hloads] at hmoves
    exact hmoves.scene?_eq_none (hnone hbefore)

/-- Its document can be loaded, and its image is kept from then on. -/
theorem load_picture : ∃ r m, (pictureSession {}).load (pictureFiles .beside) ⟨"a.mtlx"⟩ =
      (.ok (), showing {} r pictureLoaded m) ∧
    ∃ d, Ordered.get? pictureKey r.images.entries = some (.ok d) := by
  obtain ⟨shader, hoffers, hbinds⟩ := offers_picture (.inl rfl) .beside
  obtain ⟨p, r, hprogram⟩ := program_tally (pictureSession {}).renderer shader.name
    ⟨shader.vertexSource, shader.pixelSource⟩
  refine ⟨_, _, load_lone (hoffers _ _) hprogram, ?_⟩
  have hcompiles : Compiles (pictureSession {}).renderer r := .inr ⟨_, _, by rw [hprogram]⟩
  have hstart : (pictureSession {}).renderer.Current (pictureFiles .beside) 0 (fun _ _ => False) :=
    ⟨⟨rfl, nofun⟩, Nat.le_refl _, nofun⟩
  obtain ⟨r₁, -, hafter, hunit⟩ := (hbinds p).passes (s := pictureSession {}) .beside rfl r
  obtain ⟨-, hdraws⟩ := (pictureSession {}).afterActivate_draws (pictureFiles .beside) none (.new shader p) r
  have hentry := hafter.keeps (Renderer.get?_bindTexture hunit ⟨"w.tga"⟩ _)
  rw [key_picture] at hentry
  have htold := ((hcompiles.current hstart).draws hdraws).1.entries _ _ hentry
  cases himage : (r₁.image (pictureFiles .beside) ⟨"w.tga"⟩).1 with
  | ok d => exact ⟨d, himage ▸ hentry⟩
  | error e =>
    rw [himage] at htold
    rcases htold with hfalse | hnone
    · exact hfalse.elim
    · have hsome := picture?_pictureFiles.1
      rw [hnone] at hsome
      cases hsome

/-- Its document can be read again, whatever was shown. -/
theorem reload_picture (r : Renderer (Traced Tally)) (loaded : LoadedDocument) (m₀ : Material) :
    ∃ r₁ b held, Compiles r r₁ ∧ BindsPicture b ∧
      let after := (showing {} r loaded m₀).afterActivate (pictureFiles .nowhere) none b
        (m₀.imageFiles.foldl (·.invalidate (pictureFiles .nowhere) ·) r₁)
      (showing {} r loaded m₀).reload (pictureFiles .nowhere) =
        (.ok (), showing {} (after.2.purgePrograms held) pictureLoaded
          ((Material.ofSubset pictureSubset).withBound after.1)) := by
  obtain ⟨shader, hoffers, hbinds⟩ := offers_picture (.inl rfl) .nowhere
  obtain ⟨p, r₁, hprogram⟩ := program_tally r shader.name
    ⟨shader.vertexSource, shader.pixelSource⟩
  obtain ⟨held, hreload⟩ := reload_lone rfl (hoffers _ _) hprogram
  exact ⟨r₁, .new shader p, held, .inr ⟨_, _, by rw [hprogram]⟩, hbinds p, hreload⟩

/-- Another document can be loaded, without an image. What was in the cache stays. -/
theorem load_number (r : Renderer (Traced Tally)) (loaded : LoadedDocument) (m : Material) :
    ∃ r' loaded' m', (showing {} r loaded m).load sampleFiles ⟨"a.mtlx"⟩ =
        (.ok (), showing {} r' loaded' m') ∧ m'.imageFiles = [] ∧
      ∀ key entry, Ordered.get? key r.images.entries = some entry →
        Ordered.get? key r'.images.entries = some entry := by
  obtain ⟨shader, hoffers, himages⟩ := offers_sample r (some (loneScene ⟨"a.mtlx"⟩ loaded m))
  obtain ⟨p, r₁, hprogram⟩ := program_tally r shader.name
    ⟨shader.vertexSource, shader.pixelSource⟩
  refine ⟨_, _, _, load_lone hoffers hprogram, ?_, fun key entry hentry => ?_⟩
  · show (ShaderBinding.lookUpImages (.new shader p) _ _ _).found.map (·.2) = []
    unfold ShaderBinding.lookUpImages
    show ((List.filterMap _ shader.imageUniforms).foldl _ (ShaderBinding.new shader p)).found.map _
      = []
    rw [himages]
    rfl
  · have hcompiles : Compiles r r₁ := .inr ⟨_, _, by rw [hprogram]⟩
    refine (afterActivate_draws _ sampleFiles _ (.new shader p) r₁).2.keeps ?_
    rwa [hcompiles.images]

end MaterialViewer.Session
