import MaterialViewer.Proofs.Files.Writing
import MaterialViewer.Proofs.Settings.Values
import MaterialViewer.Settings.File

/-!
# Proofs: settings in object notation

The parts of settings are read from what is written for them, and so are settings as a whole, except
that they get the default color where they have no fallback color.
-/

namespace MaterialViewer.Settings

open Notation

/-! ## Points and colors -/

theorem isWritten_singles {xs : List Single} (depth : Nat) (hne : xs ≠ [])
    (h : ∀ x ∈ xs, x.isNaN = false) :
    IsWritten (tuple? single?) (depth + 1) (singlesNotation xs) xs :=
  isWritten_tuple hne fun x hx => isWritten_single depth (h x hx)

theorem isWritten_point {p : Point} (depth : Nat) (h : ∀ x ∈ p.toList, x.isNaN = false) :
    IsWritten point? (depth + 1) (singlesNotation p.toList) p := by
  have hne : p.toList ≠ [] := List.cons_ne_nil _ _
  have htuple := isWritten_singles depth hne h
  refine ⟨htuple.printable, ?_⟩
  rw [point?, htuple.read]
  rfl

theorem isWritten_color {c : Color} (depth : Nat) (h : ∀ x ∈ c.components, x.isNaN = false) :
    IsWritten color? (depth + 1) (singlesNotation c.components) c := by
  have hne : c.components ≠ [] := List.cons_ne_nil _ _
  have htuple := isWritten_singles depth hne h
  refine ⟨htuple.printable, ?_⟩
  rw [color?, htuple.read]
  rfl

/-! ## Records -/

theorem isWritten_texts (depth : Nat) (texts : List String) :
    IsWritten (sequence? text?) (depth + 1) (.sequence (texts.map .text)) texts :=
  isWritten_sequence fun s _ => isWritten_text depth s

theorem isWritten_searchPath (depth levels : Nat) (s : SearchPath) :
    IsWritten (searchPath? {} levels) (depth + 2) (searchPathNotation s) s := by
  have hpaths : IsWritten (sequence? text?) (depth + 1)
      (.sequence (s.directories.map fun p => .text p.text)) (s.directories.map (·.text)) := by
    have htexts := isWritten_texts depth (s.directories.map (·.text))
    rwa [List.map_map] at htexts
  have hfields : IsWritten (fields? {} levels "FileSearchPath" ["paths"]) (depth + 2)
      (searchPathNotation s) (fieldsAsRead _) :=
    isWritten_fields (by decide) (by decide) (List.cons_ne_nil _ _) (List.Sublist.refl _)
      (List.forall_mem_singleton.mpr hpaths.printable)
  have hpath : (s.directories.map (·.text)).map Path.mk = s.directories := by
    rw [List.map_map]
    exact List.map_id _
  refine ⟨hfields.printable, bind_eq_some hfields.read ?_⟩
  refine bind_eq_some (field?_of_lookup rfl hpaths) ?_
  rw [hpath]
  rfl

theorem isWritten_target (depth levels : Nat) (t : Target) :
    IsWritten (target? {} levels) (depth + 1)
      (.record (some (.plain "ImplementationTarget"))
        [("language", .text t.language), ("target", .text t.target)]) t := by
  have hfields : IsWritten (fields? {} levels "ImplementationTarget" ["language", "target"])
      (depth + 1) (.record (some (.plain "ImplementationTarget"))
        [("language", .text t.language), ("target", .text t.target)]) (fieldsAsRead _) :=
    isWritten_fields (by decide) (by decide) (List.cons_ne_nil _ _) (List.Sublist.refl _)
      (by simp [IsPrintable.text])
  exact ⟨hfields.printable, bind_eq_some hfields.read rfl⟩

theorem eraseDups_of_nodup {names : List String} (h : names.Nodup) : names.eraseDups = names := by
  induction names with
  | nil => rfl
  | cons name names ih =>
    obtain ⟨hnew, hrest⟩ := List.nodup_cons.mp h
    have hfilter : names.filter (fun b => !b == name) = names := by
      refine List.filter_eq_self.mpr fun b hb => ?_
      have hne : b ≠ name := fun heq => hnew (heq ▸ hb)
      rw [beq_false_of_ne hne, Bool.not_false]
    rw [List.eraseDups_cons, hfilter, ih hrest]

theorem isWritten_modifiers {m : DocumentModifiers} (depth levels : Nat)
    (hremap : (m.remap.map Prod.fst).Nodup) (hskip : m.skip.Nodup) :
    IsWritten (modifiers? {} levels) (depth + 2) (modifiersNotation m) m := by
  have htable : IsWritten table? (depth + 1) _ m.remap := isWritten_table hremap
  have htexts := isWritten_texts depth m.skip
  have hterminator := isWritten_text (depth + 1) m.prefixTerminator
  have hfields : IsWritten (fields? {} levels "DocumentModifiers"
      ["remap_elements", "skip_elements", "file_prefix_terminator"]) (depth + 2)
      (modifiersNotation m) (fieldsAsRead _) :=
    isWritten_fields (by decide) (by decide) (List.cons_ne_nil _ _) (List.Sublist.refl _)
      (by simp [htable.printable, htexts.printable, hterminator.printable])
  refine ⟨hfields.printable, bind_eq_some hfields.read ?_⟩
  refine bind_eq_some (field?_of_lookup rfl htable) ?_
  refine bind_eq_some (field?_of_lookup rfl htexts) ?_
  refine bind_eq_some (field?_of_lookup rfl hterminator) ?_
  rw [eraseDups_of_nodup hskip]
  rfl

theorem isWritten_camera {c : Camera} (depth levels : Nat)
    (hnumbers : ∀ x ∈ c.numbers, x.isNaN = false) (hwidth : c.width < 2 ^ 32)
    (hheight : c.height < 2 ^ 32) :
    IsWritten (camera? {} levels) (depth + 2) (cameraNotation c) c := by
  simp only [Camera.numbers, List.forall_mem_append, List.forall_mem_cons] at hnumbers
  obtain ⟨⟨heye, htarget⟩, hangle, hnear, hfar, hzoom, -⟩ := hnumbers
  have heye := isWritten_point depth heye
  have htarget := isWritten_point depth htarget
  have hangle := isWritten_single (depth + 1) hangle
  have hnear := isWritten_single (depth + 1) hnear
  have hfar := isWritten_single (depth + 1) hfar
  have hzoom := isWritten_single (depth + 1) hzoom
  have hviewport : IsWritten (tuple? (nat? 32)) (depth + 1)
      (.tuple none [natNotation c.width, natNotation c.height]) [c.width, c.height] := by
    have hsizes : ∀ n ∈ [c.width, c.height], n < 2 ^ 32 :=
      List.forall_mem_cons.mpr ⟨hwidth, List.forall_mem_singleton.mpr hheight⟩
    exact isWritten_tuple (List.cons_ne_nil _ _) fun n hn => isWritten_nat depth (hsizes n hn)
  have hfields : IsWritten (fields? {} levels "CameraSettings"
      ["eye", "target", "view_angle", "near", "far", "zoom", "viewport"]) (depth + 2)
      (cameraNotation c) (fieldsAsRead _) :=
    isWritten_fields (by decide) (by decide) (List.cons_ne_nil _ _) (List.Sublist.refl _)
      (by simp [heye.printable, htarget.printable, hangle.printable, hnear.printable,
        hfar.printable, hzoom.printable, hviewport.printable])
  refine ⟨hfields.printable, bind_eq_some hfields.read ?_⟩
  refine bind_eq_some (fieldOr_of_lookup rfl hviewport) ?_
  refine bind_eq_some (fieldOr_of_lookup rfl heye) ?_
  refine bind_eq_some (fieldOr_of_lookup rfl htarget) ?_
  refine bind_eq_some (fieldOr_of_lookup rfl hangle) ?_
  refine bind_eq_some (fieldOr_of_lookup rfl hnear) ?_
  refine bind_eq_some (fieldOr_of_lookup rfl hfar) ?_
  refine bind_eq_some (fieldOr_of_lookup rfl hzoom) ?_
  rfl

theorem isWritten_generator {o : GeneratorOptions} (depth levels : Nat)
    (hlights : o.maxLights < 2 ^ 64) :
    IsWritten (generator? {} levels) (depth + 3) (generatorNotation o) o := by
  have htarget := isWritten_target (depth + 1) (Notation.fieldDepth levels) o.target
  have htransparency := isWritten_bool (depth + 2) o.transparency
  have hinterface := isWritten_interface (depth + 2) o.interface
  have hspace := isWritten_text (depth + 2) o.colorSpace
  have hmethod := isWritten_method (depth + 2) o.environment
  have hlights := isWritten_nat (depth + 2) hlights
  have hpath := isWritten_searchPath depth (Notation.fieldDepth levels) o.sourcePath
  have hfields : IsWritten (fields? {} levels "GenOptions"
      ["target", "hw_transparency", "shader_interface", "target_color_space_override",
        "specular_environment_method", "max_light_sources", "source_search_path"]) (depth + 3)
      (generatorNotation o) (fieldsAsRead _) :=
    isWritten_fields (by decide) (by decide) (List.cons_ne_nil _ _) (List.Sublist.refl _)
      (by simp [htarget.printable, htransparency.printable, hinterface.printable,
        hspace.printable, hmethod.printable, hlights.printable, hpath.printable])
  refine ⟨hfields.printable, bind_eq_some hfields.read ?_⟩
  refine bind_eq_some (fieldOr_of_lookup rfl htarget) ?_
  refine bind_eq_some (fieldOr_of_lookup rfl htransparency) ?_
  refine bind_eq_some (fieldOr_of_lookup rfl hinterface) ?_
  refine bind_eq_some (fieldOr_of_lookup rfl hspace) ?_
  refine bind_eq_some (fieldOr_of_lookup rfl hmethod) ?_
  refine bind_eq_some (fieldOr_of_lookup rfl hlights) ?_
  refine bind_eq_some (fieldOr_of_lookup rfl hpath) ?_
  rfl

/-! ## Settings -/

/-- Settings that a file can hold: the numbers are in the ranges of their kinds, none of them is no
number, and maps and sets have nothing twice. -/
structure IsStorable (s : Settings) : Prop where
  version : s.version ≤ newestVersion
  remap : (s.modifiers.remap.map Prod.fst).Nodup
  skip : s.modifiers.skip.Nodup
  samples : s.environment.samples < 2 ^ 32
  width : s.camera.width < 2 ^ 32
  height : s.camera.height < 2 ^ 32
  lights : s.generator.maxLights < 2 ^ 64
  numbers : ∀ x ∈ s.numbers, x.isNaN = false

/-- What is written for settings is read as these settings, with the default color in place of no
fallback color. -/
theorem isWritten_settings {s : Settings} (hs : s.IsStorable) :
    IsWritten (ofNotation? {}) depthLimit s.toNotation
      { s with fallback? := s.fallback?.or (some .opaqueBlack) } := by
  obtain ⟨hcamera, hfallback⟩ := List.forall_mem_append.mp hs.numbers
  have hbound : s.version < 2 ^ 32 := Nat.lt_of_le_of_lt hs.version (by decide)
  have hversion := isWritten_nat 127 hbound
  have hfolders := isWritten_texts 126 s.libraryFolders
  have hpath := isWritten_searchPath 125 (Notation.fieldDepth depthLimit) s.searchPath
  have hmodifiers := isWritten_modifiers 125 (Notation.fieldDepth depthLimit) hs.remap hs.skip
  have hradiance := isWritten_text 127 s.environment.radiance
  have hirradiance := isWritten_text 127 s.environment.irradiance
  have hsamples := isWritten_nat 127 hs.samples
  have hdirect := isWritten_bool 127 s.environment.direct
  have hindirect := isWritten_bool 127 s.environment.indirect
  have hcamera := isWritten_camera 125 (Notation.fieldDepth depthLimit) hcamera hs.width
    hs.height
  have hgenerator := isWritten_generator 124 (Notation.fieldDepth depthLimit) hs.lights
  have hmaterial : ∀ p ∈ s.material?, IsWritten (fun n => (text? n).map Path.mk) 126
      (.text p.text) p := fun p _ => ⟨.text p.text, rfl⟩
  have hfallback : ∀ c ∈ s.fallback?, IsWritten color? 126 (singlesNotation c.components) c :=
    fun c hc => isWritten_color 125 fun x hx => hfallback x (by rw [hc]; exact hx)
  have hfields : IsWritten (fields? {} depthLimit "ViewerSettings"
      (["version"] ++ ["material"] ++ ["library_folders", "search_path", "modifiers",
        "environment_radiance", "environment_irradiance", "env_samples", "direct_lighting",
        "indirect_lighting"] ++ ["fallback_color"] ++ ["camera", "generator"])) (127 + 1)
      s.toNotation (fieldsAsRead _) :=
    isWritten_fields (by decide) (by decide) (List.cons_ne_nil _ _)
      (by
        simp only [List.map_append]
        exact ((((List.Sublist.refl _).append (keys_optionalField _ _)).append
          (List.Sublist.refl _)).append (keys_optionalField _ _)).append (List.Sublist.refl _))
      (by
        simp only [List.forall_mem_append, List.forall_mem_cons, List.not_mem_nil,
          IsEmpty.forall_iff, implies_true, and_true, true_and, hversion.printable,
          hfolders.printable, hpath.printable, hmodifiers.printable, hradiance.printable,
          hirradiance.printable, hsamples.printable, hdirect.printable, hindirect.printable,
          hcamera.printable, hgenerator.printable]
        exact ⟨isPrintable_optionalField hmaterial _, isPrintable_optionalField hfallback _⟩)
  refine ⟨hfields.printable, bind_eq_some hfields.read ?_⟩
  refine bind_eq_some (fieldOr_of_lookup ?_ hversion) <|
    bind_eq_some (fieldOr_option ?_ hmaterial _ _) <|
    bind_eq_some (fieldOr_of_lookup ?_ hfolders) <|
    bind_eq_some (fieldOr_of_lookup ?_ hpath) <|
    bind_eq_some (fieldOr_of_lookup ?_ hmodifiers) <|
    bind_eq_some (fieldOr_of_lookup ?_ hradiance) <|
    bind_eq_some (fieldOr_of_lookup ?_ hirradiance) <|
    bind_eq_some (fieldOr_of_lookup ?_ hsamples) <|
    bind_eq_some (fieldOr_of_lookup ?_ hdirect) <|
    bind_eq_some (fieldOr_of_lookup ?_ hindirect) <|
    bind_eq_some (fieldOr_option ?_ hfallback _ _) <|
    bind_eq_some (fieldOr_of_lookup ?_ hcamera) <|
    bind_eq_some (fieldOr_of_lookup ?_ hgenerator) ?_
  case refine_14 =>
    rw [Option.or_none]
    rfl
  all_goals simp [List.lookup_append, List.lookup_cons]

/-! ## Files -/

theorem ofText_render {s : Settings} (hs : s.IsStorable) (path : Path) :
    ofText path s.render =
      .ok { s.withSamples s.environment.samples with
        fallback? := s.fallback?.or (some .opaqueBlack) } := by
  have hwritten := isWritten_settings hs
  have hparse : (Notation.parse? s.render).bind (fun read => ofNotation? read.1 read.2) =
      some { s with fallback? := s.fallback?.or (some .opaqueBlack) } := by
    rw [render, parse?_render hwritten.printable]
    exact hwritten.read
  have hversion : ¬ s.version > newestVersion := Nat.not_lt_of_le hs.version
  rw [ofText, hparse]
  exact if_neg hversion

/-- Settings that were saved to a file are loaded from it with the number of samples in the range,
and with the default color in place of no fallback color. -/
theorem load_of_save {s : Settings} (hs : s.IsStorable) {files files' : FileTree} {path : Path}
    (hsave : s.save files path = .ok files') :
    load files' path =
      .ok { s.withSamples s.environment.samples with
        fallback? := s.fallback?.or (some .opaqueBlack) } := by
  unfold save at hsave
  split at hsave
  · cases hsave
  next written hwrite =>
    obtain rfl := Except.ok.inj hsave
    rw [load, FileTree.readText?_of_writeText? hwrite]
    exact ofText_render hs path

/-- Settings survive that they are saved and loaded, but for the number of samples that is moved
into the range, if and only if they have a fallback color. Without one they come back with the
default color. -/
theorem load_save {s : Settings} (hs : s.IsStorable) {files files' : FileTree} {path : Path}
    (hsave : s.save files path = .ok files') :
    load files' path =
        .ok { s.withSamples s.environment.samples with
          fallback? := s.fallback?.or (some .opaqueBlack) } ∧
      (load files' path = .ok (s.withSamples s.environment.samples) ↔ s.fallback? ≠ none) := by
  have hload := load_of_save hs hsave
  refine ⟨hload, ?_, ?_⟩
  · intro hsame hnone
    rw [hload] at hsame
    have hfallback := congrArg Settings.fallback? (Except.ok.inj hsame)
    rw [hnone] at hfallback
    cases hfallback.trans hnone
  · intro hne
    obtain ⟨color, hcolor⟩ := Option.ne_none_iff_exists'.mp hne
    rw [hload, hcolor, Option.some_or, ← hcolor]
    rfl

theorem isNaN_of_mem_default_numbers : ∀ x ∈ ({} : Camera).numbers, x.isNaN = false := by decide +kernel

/-- Settings with more samples than there can be, a replacement and their own fallback color. -/
def redFallback : Settings where
  modifiers := { remap := [("standard_surface", "surf")] }
  environment := { samples := 4096 }
  fallback? := some ⟨.one, .zero, .zero, .one⟩

theorem load_save_redFallback :
    redFallback.IsStorable ∧
      ∃ files', redFallback.save (.empty []) ⟨"viewer.ron"⟩ = .ok files' ∧
        load files' ⟨"viewer.ron"⟩ = .ok (redFallback.withSamples 4096) := by
  have hstorable : redFallback.IsStorable :=
    ⟨by decide, by decide, by decide, by decide, by decide, by decide, by decide,
      List.forall_mem_append.mpr ⟨isNaN_of_mem_default_numbers, by decide⟩⟩
  have hsave : redFallback.save (.empty []) ⟨"viewer.ron"⟩ =
      .ok (FileTree.insertFile (.empty []) ["viewer.ron"] redFallback.render.toUTF8) := rfl
  exact ⟨hstorable, _, hsave, (load_save hstorable hsave).2.mpr (by decide)⟩

/-- Settings without a fallback color are not loaded as they were saved. -/
theorem not_load_save :
    ∃ (s : Settings) (files files' : FileTree) (path : Path), s.IsStorable ∧
      s.save files path = .ok files' ∧
      load files' path ≠ .ok (s.withSamples s.environment.samples) := by
  have hstorable : IsStorable { fallback? := none } :=
    ⟨by decide, by decide, by decide, by decide, by decide, by decide, by decide,
      List.forall_mem_append.mpr ⟨isNaN_of_mem_default_numbers, by decide⟩⟩
  have hsave : save { fallback? := none } (.empty []) ⟨"viewer.ron"⟩ =
      .ok (FileTree.insertFile (.empty []) ["viewer.ron"]
        (render { fallback? := none }).toUTF8) := rfl
  refine ⟨_, _, _, _, hstorable, hsave, ?_⟩
  rw [load_of_save hstorable hsave]
  intro hsame
  have hfallback := congrArg Settings.fallback? (Except.ok.inj hsame)
  cases hfallback

end MaterialViewer.Settings
