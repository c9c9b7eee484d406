import MaterialViewer.Proofs.Document.Reading
import MaterialViewer.Proofs.Viewer.Steps

/-!
# Proofs: failed operations

An operation of a session over a headless device that fails leaves the session as it was: the scene
with its materials and their shaders, the selection, the images and programs in the caches, and the
device with all that is on it.
-/

namespace MaterialViewer.Session

variable {s s' : Session Headless} {files : FileTree} {e : SessionError}

theorem load_error {path : Path} (h : s.load files path = (.error e, s')) : s' = s := by
  rcases s.load_cases files path with ⟨e', hload⟩ | ⟨scene, m, r, s₁, hload, -⟩
  · rw [hload] at h
    exact (Prod.mk.inj h).2.symm
  · rw [hload] at h
    cases (Prod.mk.inj h).1

theorem reload_error (h : s.reload files = (.error e, s')) : s' = s := by
  rcases s.reload_cases files with ⟨e', hreload⟩ | ⟨scene, m, r, paths, s₁, -, -, hreload⟩
  · rw [hreload] at h
    exact (Prod.mk.inj h).2.symm
  · rw [hreload] at h
    cases (Prod.mk.inj h).1

theorem select_error {position : Nat} (h : s.select files position = (.error e, s')) : s' = s := by
  rcases s.select_cases files position with ⟨e', hselect⟩ | ⟨scene, m, r, s₁, -, -, -, hselect⟩
  · rw [hselect] at h
    exact (Prod.mk.inj h).2.symm
  · rw [hselect] at h
    cases (Prod.mk.inj h).1

theorem selectNext_error (h : s.selectNext files = (.error e, s')) : s' = s := by
  rcases s.selectNext_cases files with hnext | ⟨position, hnext⟩
  · rw [hnext] at h
    exact (Prod.mk.inj h).2.symm
  · rw [hnext] at h
    exact select_error h

theorem selectPrevious_error (h : s.selectPrevious files = (.error e, s')) : s' = s := by
  rcases s.selectPrevious_cases files with hprevious | ⟨position, hprevious⟩
  · rw [hprevious] at h
    exact (Prod.mk.inj h).2.symm
  · rw [hprevious] at h
    exact select_error h

theorem handleEvent_error {event : FileEvent} (h : s.handleEvent files event = (.error e, s')) :
    s' = s := by
  rcases s.handleEvent_cases files event with hevent | hevent | ⟨path, hevent⟩
  · rw [hevent] at h
    exact reload_error h
  · rw [hevent] at h
    cases (Prod.mk.inj h).1
  · rw [hevent] at h
    cases (Prod.mk.inj h).1

/-- An operation that fails leaves the session as it was. -/
theorem perform_error {op : Operation} (h : s.perform files op = (.error e, s')) : s' = s := by
  cases op with
  | load path => exact load_error h
  | reload => exact reload_error h
  | select position => exact select_error h
  | selectNext => exact selectNext_error h
  | selectPrevious => exact selectPrevious_error h
  | draw => exact draw_error h
  | saveShaders => exact (Prod.mk.inj h).2.symm
  | event event => exact handleEvent_error h

/-! ## A document that is gone -/

theorem reload_unreadable {scene : Scene} (hscene : s.scene? = some scene)
    (h : files.readText? scene.path = none) :
    (s.reload files).1 = .error (.document (.unreadable scene.path)) := by
  unfold reload prepare
  rw [hscene]
  dsimp only
  rw [Document.ofFile_unreadable h]

/-- A session that shows a document, whose material has been drawn once. -/
def drawn : Session Headless where
  settings := {}
  options := {}
  library := .empty
  renderer := { device := {
    lastNumber := 1
    programs := [(⟨1⟩, { name := "A/sr", uniforms := [("u_envSamples", .int 16)] })]
    current? := some ⟨1⟩
    drawCalls := 1
    triangles := 12 } }
  scene? := some {
    path := ⟨"a.mtlx"⟩
    loaded := ⟨.empty, [⟨⟨"A/sr", .shaderRef⟩, none⟩]⟩
    materials := [{ element := "A/sr", state := .bound (.new default ⟨⟨1⟩, "A/sr", ⟨"", ""⟩⟩) }]
    lights := {}
    generator := {}
    selection := 0 }

/-- Reading a document again that is gone leaves what is shown. -/
theorem perform_error_gone :
    (drawn.perform (.empty []) .reload).1 = .error (.document (.unreadable ⟨"a.mtlx"⟩)) ∧
      (drawn.perform (.empty []) .reload).2 = drawn := by
  have hread : (FileTree.empty []).readText? ⟨"a.mtlx"⟩ = none := by decide +kernel
  have herror : (drawn.perform (.empty []) .reload).1 =
      .error (.document (.unreadable ⟨"a.mtlx"⟩)) :=
    reload_unreadable (s := drawn) rfl hread
  exact ⟨herror, perform_error (Prod.ext herror rfl)⟩

end MaterialViewer.Session
