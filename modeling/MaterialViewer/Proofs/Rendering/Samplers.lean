import MaterialViewer.Proofs.Lighting.LightData
import MaterialViewer.Proofs.Rendering.Units
import MaterialViewer.Proofs.Rendering.Writings

/-!
# Proofs: what samplers read

A sampler reads the texture on the unit that it was told last. When the images and the lights of a
new binding are bound, each sampler is told a unit of its own, and the unit gets the image in the
file of the sampler, or else a color. It takes different names for this: an image can have the name
of a uniform for lighting, which is then written twice.
-/

namespace MaterialViewer

namespace ShaderBinding

/-- The uniforms that are written for lighting, besides the data of the lights. -/
def lightingNames : List String := Uniforms.activeLights :: environmentUniforms

/-- No image has the name of a uniform that is written for lighting. -/
def HasPlainImages (s : GeneratedShader) : Prop := ∀ v ∈ s.imageUniforms, v.name ∉ lightingNames

section Units

variable {b : ShaderBinding} {name : String}

/-- The samplers have different names, if images have none that are used for lighting. -/
theorem Regular.nodup_samplers (h : b.Regular) (hplain : HasPlainImages b.shader) :
    (samplers b.shader).Nodup := by
  refine List.nodup_append.2 ⟨h.nodup_imageUniforms, List.Nodup.filter _ (by decide), ?_⟩
  rintro name hname other hother rfl
  obtain ⟨v, hv, rfl⟩ := List.mem_map.1 hname
  refine hplain v hv ?_
  rcases List.mem_cons.1 (List.mem_filter.1 hother).1 with heq | hmem
  · rw [heq]
    decide
  · rw [List.mem_singleton.1 hmem]
    decide

/-- Each sampler has a unit of its own. -/
theorem Regular.exists_unit (h : b.Regular) (hplain : HasPlainImages b.shader)
    (hname : name ∈ samplers b.shader) : ∃ unit, OwnsUnit b.units name unit := by
  obtain ⟨front, back, hsplit⟩ := List.append_of_mem hname
  have hnodup := h.nodup_samplers hplain
  rw [hsplit, ← List.singleton_append, ← List.append_assoc, List.nodup_append] at hnodup
  obtain ⟨hfront, -, hapart⟩ := hnodup
  rw [h.units, hsplit]
  refine ShaderBinding.exists_ownsUnit hfront fun hback => ?_
  exact hapart name (List.mem_append_right _ (List.mem_singleton_self _)) name hback rfl

end Units

/-! ## What the scripts write -/

variable {b b₁ : ShaderBinding} {files : FileTree} {search : SearchPath} {asks : Requests}

/-- A uniform that is written for lighting and is no sampler. -/
def IsLighting (name : String) : Prop :=
  name ∈ [Uniforms.envSamples, Uniforms.envRadianceMips, Uniforms.activeLights] ∨
    ∃ index field, name = GeneratedShader.lightDataUniform index field

/-- The instruction gives a sampler what it is asked to show, or writes a uniform for lighting, or
writes nothing. -/
inductive Serves (b : ShaderBinding) (asks : Requests) : Instruction → Prop
  | sampler {name : String} {unit : Nat} {path? : Option Path} {fallback? : Option Color}
      {levels? : Option String} (hunit : Ordered.get? name b.units = some unit)
      (hasks : asks name path? fallback?)
      (hlevels : ∀ levels ∈ levels?, levels = Uniforms.envRadianceMips) :
      b.Serves asks (.sampler b.program.id name unit path? fallback? levels?)
  | uniform {name : String} {value : UniformValue} (hname : IsLighting name) :
      b.Serves asks (.command (.setUniform b.program.id name value))
  | quiet {c : Command} (h : Use.writing? (.performed c) = none) : b.Serves asks (.command c)

theorem Serves.alike (hb : b.Alike b₁) {i : Instruction} (h : b₁.Serves asks i) :
    b.Serves asks i := by
  cases h with
  | sampler hunit hasks hlevels =>
    rw [hb.program]
    exact .sampler (hb.units ▸ hunit) hasks hlevels
  | uniform hname =>
    rw [hb.program]
    exact .uniform hname
  | quiet hquiet => exact .quiet hquiet

theorem Serves.mono {asks' : Requests} {i : Instruction} (h : b.Serves asks i)
    (hasks : ∀ name path? color?, asks name path? color? → asks' name path? color?) :
    b.Serves asks' i := by
  cases h with
  | sampler hunit hrequest hlevels => exact .sampler hunit (hasks _ _ _ hrequest) hlevels
  | uniform hname => exact .uniform hname
  | quiet hquiet => exact .quiet hquiet

/-- What such an instruction writes: to a sampler its unit, to the unit what the sampler is asked to
show, or to a uniform that is no sampler. -/
inductive Served (b : ShaderBinding) (asks : Requests) (c : ImageCache) (files : FileTree) :
    Place × Content TextureSource → Prop
  | unit {name : String} {unit : Nat} {path? : Option Path} {fallback? : Option Color}
      {source : TextureSource × Option Nat} (hunit : Ordered.get? name b.units = some unit)
      (hasks : asks name path? fallback?)
      (hsource : c.sourceOr? files path? fallback? = some source) :
      b.Served asks c files (.unit unit, .texture source.1)
  | sampler {name : String} {unit : Nat} (hunit : Ordered.get? name b.units = some unit) :
      b.Served asks c files (.uniform b.program.id name, .value (.sampler unit))
  | uniform {name : String} {value : UniformValue} (hname : IsLighting name) :
      b.Served asks c files (.uniform b.program.id name, .value value)

theorem Serves.served {i : Instruction} (h : b.Serves asks i) {c : ImageCache}
    {w : Place × Content TextureSource} (hw : w ∈ i.writings c files) :
    b.Served asks c files w := by
  cases h with
  | @sampler name unit path? fallback? levels? hunit hasks hlevels =>
    rw [Instruction.writings_sampler] at hw
    cases hsource : c.sourceOr? files path? fallback? with
    | none =>
      rw [hsource] at hw
      cases hw
    | some source =>
      rw [hsource] at hw
      rcases List.mem_append.1 hw with hw | hw
      · rcases List.mem_cons.1 hw with rfl | hw
        · exact .unit hunit hasks hsource
        · obtain rfl := List.mem_singleton.1 hw
          exact .sampler hunit
      · obtain ⟨levels, hmem, hmips⟩ := Option.bind_eq_some_iff.1 (Option.mem_toList.1 hw)
        obtain ⟨mips, -, rfl⟩ := Option.map_eq_some_iff.1 hmips
        refine .uniform (.inl ?_)
        rw [hlevels levels hmem]
        decide
  | uniform hname =>
    obtain rfl := List.mem_singleton.1 hw
    exact .uniform hname
  | @quiet command hquiet =>
    change w ∈ (Use.heldWriting? (.performed command)).toList at hw
    rw [Use.heldWriting?, hquiet] at hw
    cases hw

/-- If a sampler has a unit of its own, is asked to show one thing and is given it, then its uniform
holds the unit in the end, and on the unit is what the sampler is asked to show. -/
theorem lastAt_of_serves {script : List Instruction} (hserves : ∀ i ∈ script, b.Serves asks i)
    {name : String} (hname : ¬ IsLighting name) {unit : Nat} (hunit : OwnsUnit b.units name unit)
    {path? : Option Path} {fallback? : Option Color} {levels? : Option String}
    (hgiven : .sampler b.program.id name unit path? fallback? levels? ∈ script)
    (honly : ∀ other? color?, asks name other? color? → other? = path? ∧ color? = fallback?)
    {c : ImageCache} {source : TextureSource × Option Nat}
    (hsource : c.sourceOr? files path? fallback? = some source) :
    lastAt (.uniform b.program.id name) (Instruction.allWritings c files script) =
        some (.value (.sampler unit)) ∧
      lastAt (.unit unit) (Instruction.allWritings c files script) =
        some (.texture source.1) := by
  have hserved : ∀ w ∈ Instruction.allWritings c files script, b.Served asks c files w := by
    intro w hw
    obtain ⟨i, hi, hmem⟩ := List.mem_flatMap.1 hw
    exact (hserves i hi).served hmem
  have htold : ∀ w ∈ Instruction.told b.program.id name unit levels? source,
      w ∈ Instruction.allWritings c files script := by
    intro w hw
    refine List.mem_flatMap.2 ⟨_, hgiven, ?_⟩
    rwa [Instruction.writings_sampler, hsource]
  constructor
  · refine lastAt_of_unique (htold _ (by simp [Instruction.told])) fun other hother => ?_
    cases hserved _ hother with
    | sampler hget => rw [Option.some.inj (hget.symm.trans hunit.has)]
    | uniform hlighting => exact absurd hlighting hname
  · refine lastAt_of_unique (htold _ (by simp [Instruction.told])) fun other hother => ?_
    cases hserved _ hother with
    | unit hget hasks hfrom =>
      obtain rfl := hunit.alone _ hget
      obtain ⟨rfl, rfl⟩ := honly _ _ hasks
      rw [Option.some.inj (hfrom.symm.trans hsource)]

/-! ## The scripts of images and lights -/

theorem serves_texture {name : String} {path? : Option Path} {fallback? : Option Color}
    {levels? : Option String}
    (hasks : (Ordered.get? name b.units).isSome → asks name path? fallback?)
    (hlevels : ∀ levels ∈ levels?, levels = Uniforms.envRadianceMips) :
    ∀ i ∈ b.textureScript name path? fallback? levels?, b.Serves asks i := by
  intro i hi
  obtain ⟨unit, hunit, rfl⟩ := List.mem_map.1 hi
  have hget := Option.mem_toList.1 hunit
  exact .sampler hget (hasks (Option.isSome_iff_exists.2 ⟨unit, hget⟩)) hlevels

theorem serves_set {name : String} (hname : IsLighting name) (value : UniformValue) :
    ∀ i ∈ b.setScript name value, b.Serves asks i := by
  unfold setScript
  split
  · exact fun i hi => List.mem_singleton.1 hi ▸ .uniform hname
  · exact nofun

theorem serves_rig (rig : LightRig) (direct : Bool) :
    ∀ i ∈ b.rigScript rig direct, b.Serves asks i := by
  intro i hi
  rcases List.mem_append.1 hi with hi | hi
  · exact serves_set (.inl (by decide)) _ i hi
  · obtain ⟨⟨light, index⟩, -, hi⟩ := List.mem_flatMap.1 hi
    obtain ⟨field, -, rfl⟩ := List.mem_map.1 hi
    exact .uniform (.inr ⟨index, field.1, rfl⟩)

theorem serves_use : ∀ i ∈ b.useScript, b.Serves asks i := by
  intro i hi
  rcases List.mem_cons.1 hi with rfl | hi
  · exact .quiet rfl
  · obtain rfl := List.mem_singleton.1 hi
    exact .quiet rfl

variable {tile? : Option String} {fallback? : Option Color} {environment : EnvironmentLighting}

/-- Binding the images gives their samplers what they are asked to show. -/
theorem serves_images (b : ShaderBinding) (files : FileTree) (search : SearchPath)
    (tile? : Option String) (fallback? : Option Color) (environment : EnvironmentLighting) :
    let b' := b.lookUpImages files search tile?
    ∀ i ∈ b'.imagesScript tile? fallback?, b'.Serves (b'.Asks tile? fallback? environment) i := by
  intro b' i hi
  obtain ⟨v, hv, hmem⟩ := List.mem_flatMap.1 hi
  exact serves_texture (fun _ => b.asks_lookUpImages files search tile? fallback? environment hv)
    (by simp) i hmem

/-- The file of a map that has a unit was looked up, if the map is used. -/
theorem leads_lookUpMap (b : ShaderBinding) (files : FileTree) (search : SearchPath)
    (indirect : Bool) {uniform name : String} (hunit : (Ordered.get? uniform b.units).isSome) :
    let b' := b.lookUpMap files search indirect uniform name
    b'.Leads (mapName? indirect name) ((mapName? indirect name).bind b'.found?) := by
  intro b'
  cases hname : mapName? indirect name with
  | none => exact .none
  | some file =>
    have hb' : b' = b.lookUp files search file := by
      show b.lookUpMap files search indirect uniform name = _
      rw [lookUpMap, if_neg (by simpa [Option.isSome_iff_ne_none] using hunit), hname]
      rfl
    have hfound := b.found?_lookUp files search file file
    rw [← hb', if_pos rfl] at hfound
    rw [Option.bind_some, hfound]
    exact .some hfound

/-- Binding the environment and the lights gives the maps what they are asked to show. -/
theorem serves_lights (b : ShaderBinding) (files : FileTree) (search : SearchPath) (rig : LightRig)
    (environment : EnvironmentLighting) (tile? : Option String) (fallback? : Option Color) :
    let answer := b.lightsScript files search rig environment
    Finds files search b answer.1 ∧
      ∀ i ∈ answer.2, b.Serves (answer.1.Asks tile? fallback? environment) i := by
  let first := b.lookUpMap files search environment.indirect Uniforms.envRadiance
    environment.radiance
  let second := first.lookUpMap files search environment.indirect Uniforms.envIrradiance
    environment.irradiance
  have hfirst : Finds files search b first := b.lookUpMap_finds ..
  have hsecond : Finds files search first second := first.lookUpMap_finds ..
  have hboth := hfirst.trans hsecond
  have hradiance : ∀ i ∈ first.mapScript environment.indirect Uniforms.envRadiance
      environment.radiance first.levels?,
      first.Serves (second.Asks tile? fallback? environment) i := by
    refine serves_texture (fun hunit => .radiance (hsecond.alike.units ▸ hunit) ?_) ?_
    · exact (b.leads_lookUpMap files search _ (hfirst.alike.units ▸ hunit)).finds hsecond
    · intro levels hlevels
      unfold levels? at hlevels
      split at hlevels
      · exact (Option.some.inj hlevels).symm
      · cases hlevels
  have hirradiance : ∀ i ∈ second.mapScript environment.indirect Uniforms.envIrradiance
      environment.irradiance none, second.Serves (second.Asks tile? fallback? environment) i :=
    serves_texture (fun hunit => .irradiance hunit
      (first.leads_lookUpMap files search _ (hsecond.alike.units ▸ hunit))) (by simp)
  refine ⟨hboth, fun i hi => ?_⟩
  rcases List.mem_append.1 hi with hi | hi
  · rcases List.mem_append.1 hi with hi | hi
    · rcases List.mem_append.1 hi with hi | hi
      · exact serves_set (.inl (by decide)) _ i hi
      · exact (hradiance i hi).alike hfirst.alike
    · exact (hirradiance i hi).alike hboth.alike
  · exact (serves_rig rig environment.direct i hi).alike hboth.alike

/-! ## What samplers are to show -/

/-- The maps of the environment, each with the name of its file, if the map is used. -/
def mapNames (environment : EnvironmentLighting) : List (String × Option String) :=
  [(Uniforms.envRadiance, mapName? environment.indirect environment.radiance),
    (Uniforms.envIrradiance, mapName? environment.indirect environment.irradiance)]

/-- The samplers of a shader, each with the path and the color that it is to show without the image
there. Images have the name of their file adapted to the tile, and lead to the fallback color; the
maps that are declared lead to black. -/
inductive Shows (s : GeneratedShader) (files : FileTree) (search : SearchPath)
    (tile? : Option String) (fallback : Color) (maps : List (String × Option String)) :
    String → Option Path → Color → Prop
  | image {v : ShaderVariable} (hv : v ∈ s.imageUniforms) :
      Shows s files search tile? fallback maps v.name
        ((imageName? tile? v).map fun name => search.find files ⟨name⟩) fallback
  | map {uniform : String} {name? : Option String} (hmap : (uniform, name?) ∈ maps)
      (hdeclared : s.hasUniform uniform = true) :
      Shows s files search tile? fallback maps uniform
        (name?.map fun name => search.find files ⟨name⟩) .opaqueBlack

section Shows

variable {s : GeneratedShader} {name : String} {path? other? : Option Path}
  {fallback color other : Color}

theorem mem_of_mapNames {uniform : String} {name? : Option String}
    (hmap : (uniform, name?) ∈ mapNames environment) :
    uniform ∈ [Uniforms.envRadiance, Uniforms.envIrradiance] := by
  rcases List.mem_cons.1 hmap with heq | hmap
  · rw [(Prod.mk.inj heq).1]
    exact List.mem_cons_self
  · rw [(Prod.mk.inj (List.mem_singleton.1 hmap)).1]
    exact List.mem_cons_of_mem _ (List.mem_singleton_self _)

theorem Shows.mem_samplers
    (h : Shows s files search tile? fallback (mapNames environment) name path? color) :
    name ∈ samplers s := by
  cases h with
  | image hv => exact List.mem_append_left _ (List.mem_map_of_mem hv)
  | map hmap hdeclared =>
    exact List.mem_append_right _ (List.mem_filter.2 ⟨mem_of_mapNames hmap, hdeclared⟩)

/-- A sampler is to show one thing. -/
theorem Shows.unique (hb : b.Regular) (hplain : HasPlainImages b.shader)
    (h : Shows b.shader files search tile? fallback (mapNames environment) name path? color)
    (h' : Shows b.shader files search tile? fallback (mapNames environment) name other? other) :
    other? = path? ∧ other = color := by
  have hapart : ∀ {uniform : String} {name? : Option String},
      (uniform, name?) ∈ mapNames environment → ∀ v ∈ b.shader.imageUniforms, v.name ≠ uniform := by
    rintro uniform name? hmap v hv rfl
    have hlighting : ∀ uniform ∈ [Uniforms.envRadiance, Uniforms.envIrradiance],
        uniform ∈ lightingNames := by decide
    exact hplain v hv (hlighting _ (mem_of_mapNames hmap))
  generalize hname : name = name' at h'
  cases h with
  | image hv =>
    cases h' with
    | image hw =>
      rw [hb.eq_of_name hv hw hname]
      exact ⟨rfl, rfl⟩
    | map hmap _ => exact absurd hname (hapart hmap _ hv)
  | @map _ name? hmap _ =>
    cases h' with
    | image hw => exact absurd hname.symm (hapart hmap _ hw)
    | @map _ name?' hmap' _ =>
      have hne : Uniforms.envRadiance ≠ Uniforms.envIrradiance := by decide
      have hsame : name?' = name? := by
        simp only [mapNames, List.mem_cons, Prod.mk.injEq, List.not_mem_nil, or_false] at hmap hmap'
        rcases hmap with ⟨rfl, rfl⟩ | ⟨rfl, rfl⟩ <;> rcases hmap' with ⟨hu, rfl⟩ | ⟨hu, rfl⟩
        · rfl
        · exact absurd (hname.trans hu) hne
        · exact absurd (hname.trans hu).symm hne
        · rfl
      rw [hsame]
      exact ⟨rfl, rfl⟩

/-- A sampler has the name of no uniform for lighting. -/
theorem Shows.not_isLighting (hnames : s.publicUniforms.HasIdentifiers) (hplain : HasPlainImages s)
    (h : Shows s files search tile? fallback (mapNames environment) name path? color) :
    ¬ IsLighting name := by
  rintro (hmem | ⟨index, field, rfl⟩)
  · have hlighting : ∀ name ∈ [Uniforms.envSamples, Uniforms.envRadianceMips,
        Uniforms.activeLights], name ∈ lightingNames ∧
          name ∉ [Uniforms.envRadiance, Uniforms.envIrradiance] := by decide
    cases h with
    | image hv => exact hplain _ hv (hlighting _ hmem).1
    | map hmap _ => exact (hlighting _ hmem).2 (mem_of_mapNames hmap)
  · generalize hname : GeneratedShader.lightDataUniform index field = name at h
    cases h with
    | @image v hv =>
      have hcontains : s.publicUniforms.contains v.name = true :=
        List.find?_isSome.2 ⟨v, (List.mem_filter.1 hv).1, by simp⟩
      rw [← hname, GeneratedShader.contains_lightDataUniform hnames] at hcontains
      cases hcontains
    | map hmap _ =>
      refine GeneratedShader.lightDataUniform_not_mem index field (hname ▸ ?_)
      have hlighting : ∀ uniform ∈ [Uniforms.envRadiance, Uniforms.envIrradiance],
          uniform ∈ Uniforms.activeLights :: environmentUniforms := by decide
      exact hlighting _ (mem_of_mapNames hmap)

/-- A new binding looks up where the search path leads. -/
theorem Leads.eq_find (hfinds : Finds files search b b₁) (hnew : b.found = [])
    {name? : Option String} (h : b₁.Leads name? path?) :
    path? = name?.map fun name => search.find files ⟨name⟩ := by
  obtain ⟨more, hfound, hmore⟩ := hfinds.found
  rw [hnew, List.nil_append] at hfound
  cases h with
  | none => rfl
  | @some name path hpath =>
    have hfind : path = search.find files ⟨name⟩ :=
      hmore (name, path) (hfound ▸ Ordered.mem_of_get? hpath)
    exact congrArg Option.some hfind

/-- The samplers of a new binding are asked to show what they are to show. -/
theorem Asks.shows (hb : b.Regular) (hplain : HasPlainImages b.shader)
    (hfinds : Finds files search b b₁) (hnew : b.found = []) {color? : Option Color}
    (h : b₁.Asks tile? (some fallback) environment name path? color?) :
    ∃ color, color? = some color ∧
      Shows b.shader files search tile? fallback (mapNames environment) name path? color := by
  have hmap : ∀ {uniform : String} {name? : Option String} {path? : Option Path},
      (uniform, name?) ∈ mapNames environment → (Ordered.get? uniform b₁.units).isSome →
      b₁.Leads name? path? →
      Shows b.shader files search tile? fallback (mapNames environment) uniform path?
        .opaqueBlack := by
    intro uniform name? path? hmem hunit hpath
    rw [hpath.eq_find hfinds hnew]
    refine .map hmem ?_
    rw [hfinds.alike.units, hb.units] at hunit
    obtain ⟨unit, hunit⟩ := Option.isSome_iff_exists.1 hunit
    rcases List.mem_append.1 (mem_of_numberSamplers hunit) with himage | hdeclared
    · obtain ⟨v, hv, rfl⟩ := List.mem_map.1 himage
      have hlighting : ∀ uniform ∈ [Uniforms.envRadiance, Uniforms.envIrradiance],
          uniform ∈ lightingNames := by decide
      exact absurd (hlighting _ (mem_of_mapNames hmem)) (hplain v hv)
    · exact (List.mem_filter.1 hdeclared).2
  cases h with
  | image hv hpath =>
    rw [hpath.eq_find hfinds hnew]
    exact ⟨fallback, rfl, .image (hfinds.alike.shader ▸ hv)⟩
  | radiance hunit hpath => exact ⟨_, rfl, hmap (by simp [mapNames]) hunit hpath⟩
  | irradiance hunit hpath => exact ⟨_, rfl, hmap (by simp [mapNames]) hunit hpath⟩

end Shows

/-! ## What samplers read -/

section Reads

variable {δ : Type} [Device δ]

/-- In the second renderer the uniform of a sampler holds its unit, and on the unit is what it is to
show: the image in the file, if the first renderer can acquire it, or else the color. -/
structure Reads (files : FileTree) (r r' : Renderer (Traced δ)) (program : ProgramId)
    (name : String) (unit : Nat) (path? : Option Path) (color : Color) : Prop where
  sampler : lastAt (.uniform program name) r'.device.writings = some (.value (.sampler unit))
  image : ∀ path ∈ path?, (r.image files path).1.toOption.isSome → ∃ source t,
    r.images.fileSource? files path = some source ∧
      source.1.Gives r.images files (r'.device.uses.drop r.device.uses.length) t ∧
      lastAt (.unit unit) r'.device.writings = some (.texture t)
  color : (∀ path ∈ path?, (r.image files path).1.toOption.isSome = false) → ∃ t,
    (r.images.colorSource color).Gives r.images files
        (r'.device.uses.drop r.device.uses.length) t ∧
      lastAt (.unit unit) r'.device.writings = some (.texture t)

/-- Each sampler reads what it is to show, from a unit of its own. -/
def EachReads (s : GeneratedShader) (files : FileTree) (r r' : Renderer (Traced δ))
    (program : ProgramId) (shows : String → Option Path → Color → Prop) : Prop :=
  ∃ unit : String → Nat,
    (∀ name ∈ samplers s, ∀ other ∈ samplers s, unit name = unit other → name = other) ∧
    ∀ name path? color, shows name path? color →
      Reads files r r' program name (unit name) path? color

/-- What is told last of a place in a script is there after the script. -/
theorem exists_lastAt_runAll {r : Renderer (Traced δ)} {script : List Instruction} {place : Place}
    {told : Content TextureSource}
    (h : lastAt place (Instruction.allWritings r.images files script) = some told) :
    ∃ content, Content.Is (Instruction.runAll files script r).images told content ∧
      lastAt place (Instruction.runAll files script r).device.writings = some content := by
  obtain ⟨-, more, huses, -, hrealized⟩ :=
    Instruction.runAll_writes (ImageCache.Grown.refl files r.images) script
  have hrel := lastAt_rel hrealized place
  rw [h] at hrel
  generalize hmore : lastAt place (more.filterMap Use.writing?) = last at hrel
  cases hrel with
  | @some _ content his =>
    refine ⟨content, his, ?_⟩
    rw [Traced.writings, huses, List.filterMap_append, lastAt_append, hmore, Option.some_or]

/-- The texture that is told last of a place in a script is there after the script. -/
theorem exists_gives_runAll {r : Renderer (Traced δ)} {script : List Instruction} {place : Place}
    {source : TextureSource} (hsource : source.IsOf r.images r.images.textures)
    (h : lastAt place (Instruction.allWritings r.images files script) = some (.texture source)) :
    ∃ t, source.Gives r.images files
        ((Instruction.runAll files script r).device.uses.drop r.device.uses.length) t ∧
      lastAt place (Instruction.runAll files script r).device.writings = some (.texture t) := by
  obtain ⟨-, more, huses, hgrown, -⟩ :=
    Instruction.runAll_writes (ImageCache.Grown.refl files r.images) script
  obtain ⟨content, his, hcontent⟩ := exists_lastAt_runAll h
  rcases his.eq_or with ⟨v, heq, -⟩ | ⟨source', t, heq, rfl, ht⟩
  · cases heq
  · obtain rfl := Content.texture.inj heq
    rw [huses, List.drop_left]
    exact ⟨t, hgrown.gives hsource ht, hcontent⟩

/-- If the last that a script writes for a sampler is its unit and what it is to show, then the
sampler reads it after the script. -/
theorem reads_of_lastAt {r : Renderer (Traced δ)} {script : List Instruction} {program : ProgramId}
    {name : String} {unit : Nat} {path? : Option Path} {color : Color}
    (hsampler : lastAt (.uniform program name) (Instruction.allWritings r.images files script) =
      some (.value (.sampler unit)))
    (htexture : ∀ source, r.images.sourceOr? files path? (some color) = some source →
      lastAt (.unit unit) (Instruction.allWritings r.images files script) =
        some (.texture source.1)) :
    Reads files r (Instruction.runAll files script r) program name unit path? color := by
  constructor
  · obtain ⟨content, his, hcontent⟩ := exists_lastAt_runAll hsampler
    rcases his.eq_or with ⟨v, heq, rfl⟩ | ⟨source, t, heq, -⟩
    · rw [hcontent, Content.value.inj heq]
    · cases heq
  · intro path hpath himage
    obtain rfl := hpath
    change (r.images.acquire files path r.device).1.toOption.isSome at himage
    rw [← ImageCache.isSome_fileSource?] at himage
    obtain ⟨source, hsource⟩ := Option.isSome_iff_exists.1 himage
    have hshown : r.images.sourceOr? files (some path) (some color) =
        some (source.1, some source.2) := by
      rw [ImageCache.sourceOr?, Option.bind_some, hsource]
      rfl
    exact ⟨source, (exists_gives_runAll (ImageCache.isOf_sourceOr? (fun _ => id) hshown)
      (htexture _ hshown)).imp fun t ht => ⟨hsource, ht⟩⟩
  · intro hnone
    have hmissing : path?.bind (r.images.fileSource? files) = none := by
      refine Option.bind_eq_none_iff.2 fun path hpath => ?_
      have himage := hnone path hpath
      change (r.images.acquire files path r.device).1.toOption.isSome = false at himage
      rw [← ImageCache.isSome_fileSource?, Option.isSome_eq_false_iff, Option.isNone_iff_eq_none]
        at himage
      exact himage
    have hshown : r.images.sourceOr? files path? (some color) =
        some (r.images.colorSource color, none) := by
      rw [ImageCache.sourceOr?, hmissing]
      rfl
    exact exists_gives_runAll (ImageCache.isOf_sourceOr? (fun _ => id) hshown) (htexture _ hshown)

/-- The images that were uploaded as the texture on the unit of a sampler. -/
def shownImages (d : Traced δ) (program : ProgramId) (name : String) : List Image :=
  match lastAt (.uniform program name) d.writings with
  | some (.value (.sampler unit)) =>
    match lastAt (.unit unit) d.writings with
    | some (.texture t) => d.uses.filterMap fun
      | .uploaded image t' => if t' = t then some image else none
      | _ => none
    | _ => []
  | _ => []

/-- What a sampler reads is shown, if the image cache was empty before: the image, or else the
color. -/
theorem Reads.mem_shownImages {r r' : Renderer (Traced δ)} {program : ProgramId} {name : String}
    {unit : Nat} {path? : Option Path} {color : Color}
    (h : Reads files r r' program name unit path? color) (hempty : r.images.entries = [])
    (hsolids : r.images.solids = []) :
    ((path?.bind fun path => (r.images.load files (ImageCache.key files path)).toOption).getD
      (Image.solid color)) ∈ shownImages r'.device program name := by
  have hfile : ∀ path, r.images.fileSource? files path =
      (r.images.load files (ImageCache.key files path)).toOption.map fun image =>
        (.file (ImageCache.key files path), image.mipCount) := by
    intro path
    unfold ImageCache.fileSource?
    rw [hempty]
    rfl
  have hshown : ∀ {image : Image} {t : TextureId},
      .uploaded image t ∈ r'.device.uses.drop r.device.uses.length →
      lastAt (.unit unit) r'.device.writings = some (.texture t) →
      image ∈ shownImages r'.device program name := by
    intro image t hmem htexture
    unfold shownImages
    simp only [h.sampler, htexture]
    exact List.mem_filterMap.2 ⟨_, List.mem_of_mem_drop hmem, if_pos rfl⟩
  have hcolor : (∀ path ∈ path?, (r.image files path).1.toOption.isSome = false) →
      Image.solid color ∈ shownImages r'.device program name := by
    intro hnone
    obtain ⟨t, hgives, htexture⟩ := h.color hnone
    rw [ImageCache.colorSource, hsolids] at hgives
    exact hshown hgives htexture
  cases path? with
  | none => exact hcolor nofun
  | some path =>
    have hacquire := r.images.isSome_fileSource? files path r.device
    rw [hfile, Option.isSome_map] at hacquire
    rw [Option.bind_some]
    cases hload : (r.images.load files (ImageCache.key files path)).toOption with
    | none =>
      rw [hload] at hacquire
      refine hcolor fun other hother => ?_
      obtain rfl := Option.some.inj hother
      exact hacquire.symm
    | some image =>
      rw [hload] at hacquire
      obtain ⟨source, t, hsource, hgives, htexture⟩ := h.image path rfl hacquire.symm
      rw [hfile, hload] at hsource
      obtain rfl := Option.some.inj hsource
      obtain ⟨image', himage', hmem⟩ := hgives
      rw [himage'] at hload
      obtain rfl := Option.some.inj hload
      exact hshown hmem htexture

end Reads

/-! ## New bindings -/

section New

variable {rig : LightRig} {name : String} {path? : Option Path} {fallback color : Color}

/-- The script of making the program of a binding current, binding the images, or else a color, and
binding the lights. -/
def presentScript (b : ShaderBinding) (files : FileTree) (search : SearchPath)
    (tile? : Option String) (fallback : Color) (rig : LightRig)
    (environment : EnvironmentLighting) : List Instruction :=
  let b' := b.lookUpImages files search tile?
  b.useScript ++ b'.imagesScript tile? (some fallback) ++
    (b'.lightsScript files search rig environment).2

/-- In this the samplers of a new binding are given what they are to show. -/
theorem serves_present (hb : b.Regular) (hplain : HasPlainImages b.shader) (hnew : b.found = []) :
    ∀ i ∈ b.presentScript files search tile? fallback rig environment,
      b.Serves (fun name path? color? => ∃ color, color? = some color ∧
        Shows b.shader files search tile? fallback (mapNames environment) name path? color) i := by
  let b' := b.lookUpImages files search tile?
  have himages : Finds files search b b' := b.lookUpImages_finds files search tile?
  obtain ⟨hlights, hserves⟩ :=
    b'.serves_lights files search rig environment tile? (some fallback)
  intro i hi
  rcases List.mem_append.1 hi with hi | hi
  · rcases List.mem_append.1 hi with hi | hi
    · exact serves_use i hi
    · refine ((b.serves_images files search tile? (some fallback) environment i hi).alike
        himages.alike).mono fun name path? color? hasks => ?_
      exact hasks.shows hb hplain himages hnew
  · refine ((hserves i hi).alike himages.alike).mono fun name path? color? hasks => ?_
    exact hasks.shows hb hplain (himages.trans hlights) hnew

/-- Each sampler is given what it is to show. -/
theorem mem_presentScript (hnew : b.found = [])
    (h : Shows b.shader files search tile? fallback (mapNames environment) name path? color)
    {unit : Nat}
    (hunit : Ordered.get? name b.units = some unit) (rig : LightRig) :
    ∃ levels?, .sampler b.program.id name unit path? (some color) levels? ∈
      b.presentScript files search tile? fallback rig environment := by
  let b' := b.lookUpImages files search tile?
  have himages : Finds files search b b' := b.lookUpImages_finds files search tile?
  have hmem : ∀ {b₁ : ShaderBinding} {name : String}, Finds files search b b₁ →
      Ordered.get? name b.units = some unit → ∀ path? fallback? levels?,
      .sampler b.program.id name unit path? fallback? levels? ∈
        b₁.textureScript name path? fallback? levels? := by
    intro b₁ name hfinds hunit path? fallback? levels?
    refine List.mem_map.2 ⟨unit, ?_, by rw [hfinds.alike.program]⟩
    rwa [Option.mem_toList, hfinds.alike.units]
  cases h with
  | @image v hv =>
    refine ⟨none, List.mem_append_left _ (List.mem_append_right _ ?_)⟩
    refine List.mem_flatMap.2 ⟨v, himages.alike.shader ▸ hv, ?_⟩
    have hpath := (b.leads_lookUpImages files search tile? hv).eq_find himages hnew
    rw [hpath]
    exact hmem himages hunit _ _ _
  | @map _ name? hmap _ =>
    let first := b'.lookUpMap files search environment.indirect Uniforms.envRadiance
      environment.radiance
    let second := first.lookUpMap files search environment.indirect Uniforms.envIrradiance
      environment.irradiance
    have hfirst : Finds files search b first := himages.trans (b'.lookUpMap_finds ..)
    have hsecond : Finds files search b second := hfirst.trans (first.lookUpMap_finds ..)
    have hsome : (Ordered.get? name b.units).isSome := Option.isSome_iff_exists.2 ⟨unit, hunit⟩
    simp only [mapNames, List.mem_cons, Prod.mk.injEq, List.not_mem_nil, or_false] at hmap
    rcases hmap with ⟨rfl, rfl⟩ | ⟨rfl, rfl⟩
    · refine ⟨first.levels?, List.mem_append_right _ (List.mem_append_left _
        (List.mem_append_left _ (List.mem_append_right _ ?_)))⟩
      have hpath := (b'.leads_lookUpMap files search environment.indirect
        (himages.alike.units ▸ hsome)).eq_find hfirst hnew
      rw [← hpath]
      exact hmem hfirst hunit _ _ _
    · refine ⟨none, List.mem_append_right _ (List.mem_append_left _ (List.mem_append_right _ ?_))⟩
      have hpath := (first.leads_lookUpMap files search environment.indirect
        (hfirst.alike.units ▸ hsome)).eq_find hsecond hnew
      rw [← hpath]
      exact hmem hsecond hunit _ _ _

variable {δ : Type} [Device δ]

/-- When a new binding has its images and lights bound, each of its samplers reads what it is to
show, from a unit of its own. -/
theorem reads_present (hb : b.Regular) (hnames : b.shader.publicUniforms.HasIdentifiers)
    (hplain : HasPlainImages b.shader) (hnew : b.found = [])
    (h : Shows b.shader files search tile? fallback (mapNames environment) name path? color)
    {unit : Nat}
    (hunit : OwnsUnit b.units name unit) (rig : LightRig) (r : Renderer (Traced δ)) :
    Reads files r (Instruction.runAll files
      (b.presentScript files search tile? fallback rig environment) r) b.program.id name unit
      path? color := by
  have hserves : ∀ i ∈ b.presentScript files search tile? fallback rig environment, _ :=
    serves_present hb hplain hnew
  obtain ⟨levels?, hgiven⟩ := mem_presentScript hnew h hunit.has rig
  have hlast : ∀ {source : TextureSource × Option Nat},
      r.images.sourceOr? files path? (some color) = some source → _ ∧ _ :=
    fun hsource => lastAt_of_serves hserves (h.not_isLighting hnames hplain) hunit hgiven
      (fun other? color? ⟨other, heq, hother⟩ => by
        obtain ⟨rfl, rfl⟩ := h.unique hb hplain hother
        exact ⟨rfl, heq⟩) hsource
  obtain ⟨source, hsource⟩ :
      ∃ source, r.images.sourceOr? files path? (some color) = some source := by
    unfold ImageCache.sourceOr?
    cases path?.bind (r.images.fileSource? files) with
    | none => exact ⟨_, rfl⟩
    | some found => exact ⟨_, rfl⟩
  exact reads_of_lastAt (hlast hsource).1 fun source hsource => (hlast hsource).2

end New

end ShaderBinding

namespace Material

open ShaderBinding

variable {δ₀ δ : Type} [Device δ₀] [Device δ] {m₀ m : Material} {g : ShaderGenerator} {d : Document}
  {files₀ : FileTree} {options : GeneratorOptions} {r₀ r₀' : Renderer δ₀} {b : ShaderBinding}

/-- A material with a shader can be bound, and then its images and lights can. -/
theorem present_ok (hbinding : m.binding? = some b) (files : FileTree) (search : SearchPath)
    (fallback : Color) (rig : LightRig) (environment : EnvironmentLighting)
    (r : Renderer (Traced δ)) :
    ∃ m₁ r₁ count m₂ r₂ m₃, m.bind r = .ok (m₁, r₁) ∧
      m₁.bindImages files search (some fallback) r₁ = .ok (count, m₂, r₂) ∧
      m₂.bindLights files search rig environment r₂ = .ok (m₃, Instruction.runAll files
        (b.presentScript files search m.tile? fallback rig environment) r) := by
  let answer := b.bindImages files search m.tile? (some fallback) (b.use r)
  let lit := answer.2.1.bindLights files search rig environment answer.2.2
  refine ⟨m.withBound b, b.use r, answer.1, m.withBound answer.2.1, answer.2.2, m.withBound lit.1,
    bind_ok hbinding r, rfl, ?_⟩
  have hlit : lit.2 = Instruction.runAll files
      (b.presentScript files search m.tile? fallback rig environment) r := by
    simp only [lit, answer, bindImages_eq_runAll, bindLights_eq_runAll, use_eq_runAll _ _ files,
      presentScript, Instruction.runAll_append]
  rw [bindLights_ok, ← hlit]

/-- After its images, with a fallback color, and its lights were bound, each sampler of a material
that was just generated reads what it is to show, from a unit of its own. -/
theorem samplers_read (hgenerate : m₀.generate g d files₀ options r₀ = (.ok m, r₀'))
    (hbinding : m.binding? = some b) (hplain : HasPlainImages b.shader) (files : FileTree)
    (search : SearchPath) (fallback : Color) (rig : LightRig) (environment : EnvironmentLighting)
    (r : Renderer (Traced δ)) :
    ∃ m₁ r₁ count m₂ r₂ m₃ r₃, m.bind r = .ok (m₁, r₁) ∧
      m₁.bindImages files search (some fallback) r₁ = .ok (count, m₂, r₂) ∧
      m₂.bindLights files search rig environment r₂ = .ok (m₃, r₃) ∧
      EachReads b.shader files r r₃ b.program.id
        (Shows b.shader files search m.tile? fallback (mapNames environment)) := by
  obtain ⟨shader, program, rfl, hshader, -⟩ := generate_ok hgenerate
  obtain rfl : ShaderBinding.new shader program = b := Option.some.inj hbinding
  have hregular : (ShaderBinding.new shader program).Regular := regular_new hshader program
  let unit := fun name => (Ordered.get? name (ShaderBinding.new shader program).units).getD 0
  have hunit : ∀ name ∈ samplers shader,
      OwnsUnit (ShaderBinding.new shader program).units name (unit name) := by
    intro name hname
    obtain ⟨number, hnumber⟩ := hregular.exists_unit hplain hname
    rwa [show unit name = number from congrArg (·.getD 0) hnumber.has]
  obtain ⟨m₁, r₁, count, m₂, r₂, m₃, hbind, himages, hlights⟩ :=
    present_ok hbinding files search fallback rig environment r
  refine ⟨m₁, r₁, count, m₂, r₂, m₃, _, hbind, himages, hlights, unit, ?_, ?_⟩
  · intro name hname other hother heq
    exact ((hunit name hname).alone other (heq ▸ (hunit other hother).has)).symm
  · intro name path? color hshows
    exact reads_present hregular (generate_hasIdentifiers hshader).1 hplain rfl hshows
      (hunit name hshows.mem_samplers) rig r

/-! ## A poster -/

open Graph.Sample in
/-- A document with a surface that is lit and has an image for each tile. -/
def posterDocument (surface image : String) : Document :=
  (request
    [definition "paint" "surfaceshader" [input image "filename" [("value", "w.<UDIM>.tga")]],
      implementation "paint" "surfaceshader(vec3(0.0), vec3(0.0))",
      node "paint" surface "surfaceshader" []]).document

/-- The bytes of an image file with one pixel. -/
def posterBytes : ByteArray :=
  ⟨#[0, 0, 2, 0, 0, 0, 0, 0, 0, 0, 0, 0, 1, 0, 1, 0, 24, 32, 1, 2, 9]⟩

/-- The files of two maps of the environment. The image of the surface is missing. -/
def posterFiles : FileTree := ⟨[], [[]], [(["e.tga"], posterBytes), (["e.1001.tga"], posterBytes)]⟩

/-- The environment with a map. -/
def posterEnvironment : EnvironmentLighting := { radiance := "e.tga", irradiance := "i.tga" }

/-- The color of the surface without its image. -/
def posterColor : Color := ⟨.one, .zero, .zero, .one⟩

/-- A renderer of which no use was made yet. -/
def posterRenderer : Renderer (Traced Tally) where
  device := .start {}
  programs := { sourceHash := fun _ => 0 }

/-- The material of the surface for a tile, with its shader. -/
def poster (surface image : String) : Except MaterialError Material × Renderer (Traced Tally) :=
  (new surface (some "1001")).generate {} (posterDocument surface image) posterFiles {}
    posterRenderer

/-- The uniform of its image. -/
def posterVariable (surface image : String) : ShaderVariable where
  name := surface ++ "_" ++ image
  type := .filename
  value? := some (.filename "w.<UDIM>.tga")
  path := surface ++ "/" ++ image

theorem images_poster (surface image : String) : (poster surface image).2.images = {} := by
  rcases (new surface (some "1001")).generate_renderer {} (posterDocument surface image)
    posterFiles {} posterRenderer with h | ⟨name, source, h⟩
  · exact congrArg Renderer.images h
  · exact congrArg Renderer.images h

/-- An image, a map and the color of the surface have a unit each. -/
theorem samplers_read_poster : ∃ m b m₁ r₁ count m₂ r₂ m₃ r₃,
    (poster "top" "file").1 = .ok m ∧ m.binding? = some b ∧ HasPlainImages b.shader ∧
      m.bind (poster "top" "file").2 = .ok (m₁, r₁) ∧
      m₁.bindImages posterFiles {} (some posterColor) r₁ = .ok (count, m₂, r₂) ∧
      m₂.bindLights posterFiles {} {} posterEnvironment r₂ = .ok (m₃, r₃) ∧
      ∃ unit unit', unit ≠ unit' ∧
        Reads posterFiles (poster "top" "file").2 r₃ b.program.id "top_file" unit
          (some ⟨"w.1001.tga"⟩) posterColor ∧
        Reads posterFiles (poster "top" "file").2 r₃ b.program.id Uniforms.envRadiance unit'
          (some ⟨"e.tga"⟩) .opaqueBlack := by
  have heval : (poster "top" "file").1.toOption.map (fun m => (m.tile?, m.binding?.map fun b =>
      (b.shader.imageUniforms, b.shader.hasUniform Uniforms.envRadiance))) =
        some (some "1001", some ([posterVariable "top" "file"], true)) := by decide +kernel
  obtain ⟨m, hm, hview⟩ := Graph.Sample.exists_ok_of_map heval
  obtain ⟨htile, hbinding⟩ := Prod.mk.inj hview
  obtain ⟨b, hb, hshader⟩ := Option.map_eq_some_iff.1 hbinding
  obtain ⟨himages, hradiance⟩ := Prod.mk.inj hshader
  have hplain : HasPlainImages b.shader := by
    intro v hv
    rw [himages] at hv
    rw [List.mem_singleton.1 hv]
    decide +kernel
  have hgenerate : (new "top" (some "1001")).generate {} (posterDocument "top" "file") posterFiles
      {} posterRenderer = (.ok m, (poster "top" "file").2) := Prod.ext hm rfl
  obtain ⟨m₁, r₁, count, m₂, r₂, m₃, r₃, hbind, hbound, hlit, unit, hunit, hreads⟩ :=
    samplers_read hgenerate hb hplain posterFiles {} posterColor {} posterEnvironment
      (poster "top" "file").2
  have hfile : Shows b.shader posterFiles {} m.tile? posterColor (mapNames posterEnvironment)
      "top_file" (some ⟨"w.1001.tga"⟩) posterColor := by
    have hname : (imageName? (some "1001") (posterVariable "top" "file")).map
        (fun name => SearchPath.find {} posterFiles ⟨name⟩) = some ⟨"w.1001.tga"⟩ := by
      decide +kernel
    rw [htile, ← hname]
    exact .image (himages ▸ List.mem_singleton_self _)
  have hmap : Shows b.shader posterFiles {} m.tile? posterColor (mapNames posterEnvironment)
      Uniforms.envRadiance (some ⟨"e.tga"⟩) .opaqueBlack := by
    have hname : (mapName? posterEnvironment.indirect posterEnvironment.radiance).map
        (fun name => SearchPath.find {} posterFiles ⟨name⟩) = some ⟨"e.tga"⟩ := by decide +kernel
    rw [← hname]
    exact .map List.mem_cons_self hradiance
  refine ⟨m, b, m₁, r₁, count, m₂, r₂, m₃, r₃, hm, hb, hplain, hbind, hbound, hlit, _, _,
    fun hsame => ?_, hreads _ _ _ hfile, hreads _ _ _ hmap⟩
  exact absurd (hunit _ hfile.mem_samplers _ hmap.mem_samplers hsame) (by decide)

/-- The maps of the environment, if their files were named like those of images: always used, and
with the name adapted to the tile. -/
def mapNamesForTile (tile? : Option String) (environment : EnvironmentLighting) :
    List (String × Option String) :=
  [(Uniforms.envRadiance, some (forTile tile? environment.radiance)),
    (Uniforms.envIrradiance, some (forTile tile? environment.irradiance))]

/-- The material when its images and lights are bound. -/
def posterRun (surface image : String) (environment : EnvironmentLighting) :
    Except MaterialError (Material × Renderer (Traced Tally)) := do
  let m ← (poster surface image).1
  let (m, r) ← m.bind (poster surface image).2
  let (_, m, r) ← m.bindImages posterFiles {} (some posterColor) r
  m.bindLights posterFiles {} {} environment r

/-- The images and the lights are bound, but not each sampler reads what it would be to show if the
maps of the environment were like images. -/
def Misreads (surface image : String) (environment : EnvironmentLighting) : Prop :=
  ∃ m r b, posterRun surface image environment = .ok (m, r) ∧ m.binding? = some b ∧
    ¬ EachReads b.shader posterFiles (poster surface image).2 r b.program.id
      (Shows b.shader posterFiles {} (some "1001") posterColor
        (mapNamesForTile (some "1001") environment))

/-- A sampler that shows nothing of what it would be to show does not read it. -/
theorem misreads_of_shownImages {surface image : String} {environment : EnvironmentLighting}
    {path? : Option Path} {color : Color} (sampler : String) (shown : List Image)
    (heval : (posterRun surface image environment).toOption.bind (fun result =>
      result.1.binding?.map fun b => (b.shader.imageUniforms,
        b.shader.hasUniform Uniforms.envRadiance,
        shownImages result.2.device b.program.id sampler)) =
      some ([posterVariable surface image], true, shown))
    (hshows : ∀ s : GeneratedShader, s.imageUniforms = [posterVariable surface image] →
      s.hasUniform Uniforms.envRadiance = true →
      Shows s posterFiles {} (some "1001") posterColor (mapNamesForTile (some "1001") environment)
        sampler path? color)
    (hshown : ((path?.bind fun path => (ImageCache.load {} posterFiles
      (ImageCache.key posterFiles path)).toOption).getD (Image.solid color)) ∉ shown) :
    Misreads surface image environment := by
  obtain ⟨⟨m, r⟩, hrun, hbinding⟩ := Option.bind_eq_some_iff.1 heval
  obtain ⟨b, hb, hview⟩ := Option.map_eq_some_iff.1 hbinding
  obtain ⟨himages, hrest⟩ := Prod.mk.inj hview
  obtain ⟨hradiance, rfl⟩ := Prod.mk.inj hrest
  refine ⟨m, r, b, ?_, hb, fun heach => ?_⟩
  · cases hresult : posterRun surface image environment with
    | error e =>
      rw [hresult] at hrun
      cases hrun
    | ok result =>
      rw [hresult] at hrun
      rw [Option.some.inj hrun]
  · obtain ⟨unit, -, hreads⟩ := heach
    have hmem := (hreads _ _ _ (hshows b.shader himages hradiance)).mem_shownImages
      (by rw [images_poster]) (by rw [images_poster])
    rw [images_poster] at hmem
    exact hshown hmem

/-- Maps are not like images: they are black when they are not used, and nothing stands for the tile
in the names of their files. And an image with the name of a uniform for lighting is overwritten. -/
theorem not_eachReads_mapNamesForTile :
    Misreads "top" "file" { posterEnvironment with indirect := false } ∧
      Misreads "top" "file" { posterEnvironment with radiance := "e.<UDIM>.tga" } ∧
      Misreads "u" "envRadiance" posterEnvironment ∧
      Misreads "u" "envIrradiance" posterEnvironment ∧
      Misreads "u" "envSamples" posterEnvironment ∧
      Misreads "u" "envRadianceMips" posterEnvironment ∧
      Misreads "u" "numActiveLightSources" posterEnvironment := by
  have himage : ∀ {s : GeneratedShader} {surface image : String} {maps},
      s.imageUniforms = [posterVariable surface image] →
      Shows s posterFiles {} (some "1001") posterColor maps (posterVariable surface image).name
        (some ⟨"w.1001.tga"⟩) posterColor := by
    intro s surface image maps himages
    have hname : (imageName? (some "1001") (posterVariable "" "")).map
        (fun name => SearchPath.find {} posterFiles ⟨name⟩) = some ⟨"w.1001.tga"⟩ := by
      decide +kernel
    change (imageName? (some "1001") (posterVariable surface image)).map _ = _ at hname
    rw [← hname]
    exact .image (himages ▸ List.mem_singleton_self _)
  have hradiance : ∀ {s : GeneratedShader} {environment : EnvironmentLighting},
      s.hasUniform Uniforms.envRadiance = true →
      Shows s posterFiles {} (some "1001") posterColor (mapNamesForTile (some "1001") environment)
        Uniforms.envRadiance
        (some (SearchPath.find {} posterFiles ⟨forTile (some "1001") environment.radiance⟩))
        .opaqueBlack := fun hdeclared => .map List.mem_cons_self hdeclared
  refine ⟨?_, ?_, ?_, ?_, ?_, ?_, ?_⟩
  · exact misreads_of_shownImages Uniforms.envRadiance [Image.solid .opaqueBlack]
      (by decide +kernel) (fun s _ h => hradiance h) (by decide +kernel)
  · exact misreads_of_shownImages Uniforms.envRadiance [Image.solid .opaqueBlack]
      (by decide +kernel) (fun s _ h => hradiance h) (by decide +kernel)
  · exact misreads_of_shownImages _ [Image.solid .opaqueBlack] (by decide +kernel)
      (fun s h _ => himage h) (by decide +kernel)
  · exact misreads_of_shownImages _ [Image.solid .opaqueBlack] (by decide +kernel)
      (fun s h _ => himage h) (by decide +kernel)
  · exact misreads_of_shownImages _ [] (by decide +kernel) (fun s h _ => himage h)
      (by decide +kernel)
  · exact misreads_of_shownImages _ [] (by decide +kernel) (fun s h _ => himage h)
      (by decide +kernel)
  · exact misreads_of_shownImages _ [] (by decide +kernel) (fun s h _ => himage h)
      (by decide +kernel)

end Material

end MaterialViewer
