import Mathlib.Logic.Relator
import MaterialViewer.Proofs.Rendering.Lifecycle
import MaterialViewer.Proofs.Rendering.Liveness
import MaterialViewer.Proofs.Rendering.Samplers

/-!
# Proofs: materials that take turns

Several materials use one renderer in turn, and may share a program. What each of them has the
renderer do depends on its own operations only. So what a uniform or a unit holds when a material
draws is what it would hold if the material had been alone, up to the numbers of textures, unless
another material was the last to write it and wrote something else. Materials that share a program
find what the others left wherever they do not write themselves.
-/

namespace MaterialViewer

namespace Material

/-! ## Turns -/

/-- The operation reads these files, if it reads any. Generating a shader is left out: it gives a
material another program. -/
def Operation.ReadsFrom (files : FileTree) : Operation → Prop
  | .generate .. => False
  | .bindImages files' .. | .bindImage files' .. | .bindLights files' .. => files' = files
  | _ => True

/-- The binding after an operation that needs its program to be current, with the script of it. -/
def Operation.scriptOn (op : Operation) (tile? : Option String) (b : ShaderBinding) :
    ShaderBinding × List Instruction :=
  match op with
  | .generate .. | .bind => (b, [])
  | .bindView world view projection => (b, b.viewScript world view projection)
  | .bindImages files search fallback? =>
    let b' := b.lookUpImages files search tile?
    (b', b'.imagesScript tile? fallback?)
  | .bindImage files search uniform name fallback? =>
    let b' := b.lookUp files search (ShaderBinding.forTile tile? name)
    (b', b'.textureScript uniform (b'.found? (ShaderBinding.forTile tile? name)) fallback? none)
  | .bindLights files search rig environment => b.lightsScript files search rig environment
  | .bindMesh mesh => (b, b.meshScript mesh)
  | .drawPartition p => (b, b.partitionScript p)
  | .setUniform name value => (b, b.valueScript name value)

/-- The material after an operation, with the script of it; there is none if the operation is
refused. -/
def turn (m : Material) (op : Operation) : Material × List Instruction :=
  if op.needsBound then
    match m.state with
    | .bound b => (m.withBound (op.scriptOn m.tile? b).1, (op.scriptOn m.tile? b).2)
    | _ => (m, [])
  else m.binding?.elim (m, []) fun b => (m.withBound b, b.useScript)

section Turn

variable {m : Material} {b : ShaderBinding} {op : Operation} {files : FileTree}

theorem turn_bound (h : m.state = .bound b) (hop : op.needsBound = true) :
    m.turn op = (m.withBound (op.scriptOn m.tile? b).1, (op.scriptOn m.tile? b).2) := by
  unfold turn
  rw [if_pos hop, h]

theorem turn_notBound (h : m.phase ≠ .bound) (hop : op.needsBound = true) :
    m.turn op = (m, []) := by
  unfold turn
  rw [if_pos hop]
  split
  · rename_i b hstate
    exact absurd (phase_eq_bound_iff.2 ⟨b, hstate⟩) h
  · rfl

variable {δ : Type} [Device δ]

theorem Operation.onBound_eq (hop : op.ReadsFrom files) (tile? : Option String) (b : ShaderBinding)
    (r : Renderer δ) : op.onBound tile? b r =
      ((op.scriptOn tile? b).1, Instruction.runAll files (op.scriptOn tile? b).2 r) := by
  cases op with
  | generate => exact hop.elim
  | bind => rfl
  | bindView world view projection =>
    exact Prod.ext rfl (b.bindView_eq_runAll r files world view projection)
  | bindImages files' search fallback? =>
    obtain rfl := hop
    exact b.bindImages_eq_runAll r files' search tile? fallback?
  | bindImage files' search uniform name fallback? =>
    obtain rfl := hop
    exact b.bindImage_eq_runAll r files' search tile? uniform name fallback?
  | bindLights files' search rig environment =>
    obtain rfl := hop
    exact b.bindLights_eq_runAll r files' search rig environment
  | bindMesh mesh => exact Prod.ext rfl (b.bindMesh_eq_runAll r files mesh)
  | drawPartition p => exact Prod.ext rfl (b.drawPartition_eq_runAll r files p)
  | setUniform name value => exact Prod.ext rfl (b.setUniform_eq_runAll r files name value)

/-- What a material does is told without the renderer. -/
theorem perform_eq_turn (hop : op.ReadsFrom files) (m : Material) (r : Renderer δ) :
    (m.perform op r).2 = ((m.turn op).1, Instruction.runAll files (m.turn op).2 r) := by
  have houtcome := m.perform_outcome op r
  generalize m.perform op r = outcome at houtcome ⊢
  cases houtcome with
  | onBound hstate hneeds => rw [turn_bound hstate hneeds, Operation.onBound_eq hop]
  | notBound hphase hneeds =>
    rw [turn_notBound hphase hneeds]
    rfl
  | @bind b hbinding =>
    simp only [turn, hbinding]
    exact Prod.ext rfl (b.use_eq_runAll r files)
  | notGenerated hbinding =>
    simp only [turn, hbinding]
    rfl
  | generate _ => exact hop.elim
  | refused _ => exact hop.elim

/-- A script on a binding is for its program. -/
theorem Operation.isScript_scriptOn (op : Operation) (tile? : Option String) (b : ShaderBinding) :
    b.Alike (op.scriptOn tile? b).1 ∧ b.IsScript (op.scriptOn tile? b).2 := by
  cases op with
  | generate | bind => exact ⟨.refl b, nofun⟩
  | bindView world view projection =>
    exact ⟨.refl b, ShaderBinding.isScript_view world view projection⟩
  | bindImages files search fallback? =>
    have halike := b.lookUpImages_alike files search tile?
    exact ⟨halike, (ShaderBinding.isScript_images tile? fallback?).alike halike⟩
  | bindImage files search uniform name fallback? =>
    have halike := b.lookUp_alike files search (ShaderBinding.forTile tile? name)
    exact ⟨halike, (ShaderBinding.isScript_texture uniform _ fallback? none).alike halike⟩
  | bindLights files search rig environment =>
    exact ShaderBinding.isScript_lights files search rig environment
  | bindMesh mesh => exact ⟨.refl b, ShaderBinding.isScript_mesh mesh⟩
  | drawPartition p => exact ⟨.refl b, ShaderBinding.isScript_partition p⟩
  | setUniform name value =>
    refine ⟨.refl b, ?_⟩
    show b.IsScript (b.valueScript name value)
    unfold ShaderBinding.valueScript
    cases UniformValue.ofValue? value with
    | none => exact nofun
    | some u => exact ShaderBinding.isScript_set name u

/-- In its turn a material keeps its binding up to files that are looked up, and works on its own
program. -/
theorem isScript_turn (h : m.binding? = some b) (op : Operation) :
    (∃ b', (m.turn op).1.binding? = some b' ∧ b.Alike b') ∧ b.IsScript (m.turn op).2 := by
  unfold turn
  split
  · split
    · rename_i b' hstate
      obtain rfl : b' = b := by
        unfold binding? at h
        rw [hstate] at h
        exact Option.some.inj h
      obtain ⟨halike, hscript⟩ := op.isScript_scriptOn m.tile? b'
      exact ⟨⟨_, rfl, halike⟩, hscript⟩
    · exact ⟨⟨b, h, .refl b⟩, nofun⟩
  · rw [h]
    exact ⟨⟨b, rfl, .refl b⟩, ShaderBinding.isScript_use⟩

end Turn

/-! ## Taking turns -/

section Turns

variable {δ ι β : Type} [Device δ] [DecidableEq ι]

/-- The materials and the renderer after operations of the materials one after the other. -/
def takeTurns (ms : ι → Material) (r : Renderer δ) :
    List (ι × Operation) → (ι → Material) × Renderer δ
  | [] => (ms, r)
  | (a, op) :: rest =>
    let after := ((ms a).perform op r).2
    takeTurns (Function.update ms a after.1) after.2 rest

/-- What is written by operations of the materials, told from the cache and the files before, each
with the material whose operation it is. -/
def told (c : ImageCache) (files : FileTree) (ms : ι → Material) :
    List (ι × Operation) → List (ι × Place × Content TextureSource)
  | [] => []
  | (a, op) :: rest =>
    (Instruction.allWritings c files ((ms a).turn op).2).map (a, ·) ++
      told c files (Function.update ms a ((ms a).turn op).1) rest

/-- What is of one material only. -/
def own (a : ι) (xs : List (ι × β)) : List (ι × β) := xs.filter fun x => x.1 = a

variable {ms : ι → Material} {files : FileTree} {c₀ : ImageCache} {uses : List Use} {a : ι}
  {history : List (ι × Operation)}

theorem own_append (a : ι) (xs ys : List (ι × β)) : own a (xs ++ ys) = own a xs ++ own a ys :=
  List.filter_append ..

theorem told_cons (c : ImageCache) (files : FileTree) (ms : ι → Material) (a : ι) (op : Operation)
    (rest : List (ι × Operation)) : told c files ms ((a, op) :: rest) =
      (Instruction.allWritings c files ((ms a).turn op).2).map (a, ·) ++
        told c files (Function.update ms a ((ms a).turn op).1) rest := rfl

theorem own_map_self (a : ι) (ys : List β) : own a (ys.map (a, ·)) = ys.map (a, ·) := by
  refine List.filter_eq_self.2 fun x hx => ?_
  obtain ⟨y, -, rfl⟩ := List.mem_map.1 hx
  exact decide_eq_true rfl

theorem own_map_of_ne {x : ι} (h : x ≠ a) (ys : List β) : own a (ys.map (x, ·)) = [] := by
  refine List.filter_eq_nil_iff.2 fun z hz => ?_
  obtain ⟨y, -, rfl⟩ := List.mem_map.1 hz
  simpa using h

/-- What a material writes does not depend on the others. -/
theorem told_own (c : ImageCache) (files : FileTree) (a : ι) {ms ms' : ι → Material}
    (hms : ms' a = ms a) (history : List (ι × Operation)) :
    told c files ms' (own a history) = own a (told c files ms history) := by
  induction history generalizing ms ms' with
  | nil => rfl
  | cons step rest ih =>
    obtain ⟨x, op⟩ := step
    rw [told_cons, own_append]
    by_cases hx : x = a
    · subst hx
      have hstep : own x ((x, op) :: rest) = (x, op) :: own x rest :=
        List.filter_cons_of_pos (decide_eq_true rfl)
      have hafter : Function.update ms' x ((ms x).turn op).1 x =
          Function.update ms x ((ms x).turn op).1 x := by
        rw [Function.update_self, Function.update_self]
      rw [hstep, told_cons, hms, own_map_self, ih hafter]
    · have hstep : own a ((x, op) :: rest) = own a rest :=
        List.filter_cons_of_neg (by simpa using hx)
      rw [hstep, own_map_of_ne hx, List.nil_append]
      exact ih (hms.trans (Function.update_of_ne (Ne.symm hx) _ _).symm)

theorem takeTurns_append (ms : ι → Material) (r : Renderer δ)
    (history more : List (ι × Operation)) : takeTurns ms r (history ++ more) =
      takeTurns (takeTurns ms r history).1 (takeTurns ms r history).2 more := by
  induction history generalizing ms r with
  | nil => rfl
  | cons step rest ih => exact ih _ _

/-- Operations one after the other write what is told of them. -/
theorem takeTurns_writes {r : Renderer (Traced δ)} (h : ImageCache.Grown files c₀ uses r.images)
    (hreads : ∀ step ∈ history, step.2.ReadsFrom files) :
    Renderer.Writes files c₀ uses r (takeTurns ms r history).2
      ((told c₀ files ms history).map (·.2)) := by
  induction history generalizing ms r uses with
  | nil => exact Renderer.writes_performAll h [] .nil
  | cons step rest ih =>
    obtain ⟨x, op⟩ := step
    have hturn := perform_eq_turn (hreads _ List.mem_cons_self) (ms x) r
    unfold takeTurns told
    rw [List.map_append, List.map_map]
    dsimp only
    rw [hturn]
    have hwrites := Instruction.runAll_writes h ((ms x).turn op).2
    have hsame : (Instruction.allWritings c₀ files ((ms x).turn op).2).map
        ((·.2) ∘ (x, ·)) = Instruction.allWritings c₀ files ((ms x).turn op).2 := List.map_id _
    rw [hsame]
    exact hwrites.trans fun uses h =>
      ih h fun step hstep => hreads step (List.mem_cons_of_mem _ hstep)

/-- Whatever the materials do with programs in the cache, the renderer keeps its device in good
order. -/
theorem takeTurns_proper {r : Renderer (Traced δ)} (hproper : r.Proper)
    (howned : ∀ a, ∃ b, (ms a).binding? = some b ∧ b.program.id ∈ r.owned)
    (hreads : ∀ step ∈ history, step.2.ReadsFrom files) :
    (takeTurns ms r history).2.Proper := by
  induction history generalizing ms r with
  | nil => exact hproper
  | cons step rest ih =>
    obtain ⟨x, op⟩ := step
    obtain ⟨b, hb, hprogram⟩ := howned x
    obtain ⟨⟨b', hb', halike⟩, hscript⟩ := isScript_turn hb op
    obtain ⟨hrun, hprograms⟩ : (Instruction.runAll files ((ms x).turn op).2 r).Proper ∧
        (Instruction.runAll files ((ms x).turn op).2 r).programs = r.programs :=
      hproper.runAll hprogram hscript
    unfold takeTurns
    rw [perform_eq_turn (hreads _ List.mem_cons_self)]
    refine ih hrun (fun a => ?_) fun step hstep => hreads step (List.mem_cons_of_mem _ hstep)
    unfold Renderer.owned
    rw [hprograms]
    by_cases ha : a = x
    · subst ha
      exact ⟨b', by rw [Function.update_self, hb'], halike.program ▸ hprogram⟩
    · rw [Function.update_of_ne ha]
      exact howned a

end Turns

end Material

/-! ## Textures and their sources -/

/-- All textures that are told are from sources that were to be had at the beginning. -/
def AreOf (c : ImageCache) (there : List TextureId)
    (told : List (Place × Content TextureSource)) : Prop :=
  ∀ place source, (place, .texture source) ∈ told → source.IsOf c there

section Sources

variable {c₀ c : ImageCache} {there : List TextureId} {files : FileTree}

/-- Instructions for a program show no textures but those of samplers. -/
theorem Instruction.areOf_writings (hthere : ∀ t ∈ c₀.textures, t ∈ there) {p : ProgramId}
    {i : Instruction} (hi : i.IsFor p) : AreOf c₀ there (i.writings c₀ files) := by
  intro place source hmem
  cases hi with
  | @command command hwithin =>
    have hheld : (place, Content.texture source) ∈ (Use.heldWriting? (.performed command)).toList :=
      hmem
    cases command with
    | bindTexture t unit sampling => cases hwithin.texture t rfl
    | setUniform => cases List.mem_singleton.1 hheld
    | _ => cases hheld
  | sampler uniform unit path? fallback? levels? =>
    rw [Instruction.writings_sampler] at hmem
    cases hsource : c₀.sourceOr? files path? fallback? with
    | none =>
      rw [hsource] at hmem
      cases hmem
    | some found =>
      rw [hsource] at hmem
      rcases List.mem_append.1 hmem with hmem | hmem
      · rcases List.mem_cons.1 hmem with heq | hmem
        · cases heq
          exact ImageCache.isOf_sourceOr? hthere hsource
        · cases List.mem_singleton.1 hmem
      · obtain ⟨levels, -, hmips⟩ := Option.bind_eq_some_iff.1 (Option.mem_toList.1 hmem)
        obtain ⟨mips, -, heq⟩ := Option.map_eq_some_iff.1 hmips
        cases heq

/-- What was shown before was there. -/
theorem areOf_held {uses : List Use} (h : Use.Proper uses) (c : ImageCache) :
    AreOf c (uses.filterMap Use.newTexture?) (uses.filterMap Use.heldWriting?) := by
  intro place source hmem
  obtain ⟨use, huse, hwriting⟩ := List.mem_filterMap.1 hmem
  obtain ⟨before, after, hsplit⟩ := List.append_of_mem huse
  have hlive := (h before use after hsplit).texture
  cases use with
  | compiled | uploaded => cases hwriting
  | performed command =>
    cases command with
    | bindTexture t unit sampling =>
      cases hwriting
      rw [hsplit, List.filterMap_append]
      exact List.mem_append_left _ ((Use.live_sublist before).subset (hlive _ t rfl rfl))
    | _ => cases hwriting

theorem Material.areOf_told {ι : Type} [DecidableEq ι] (hthere : ∀ t ∈ c₀.textures, t ∈ there)
    {ms : ι → Material} (hms : ∀ a, ∃ b, (ms a).binding? = some b)
    (history : List (ι × Material.Operation)) :
    AreOf c₀ there ((told c₀ files ms history).map (·.2)) := by
  induction history generalizing ms with
  | nil => exact nofun
  | cons step rest ih =>
    obtain ⟨x, op⟩ := step
    obtain ⟨b, hb⟩ := hms x
    obtain ⟨⟨b', hb', -⟩, hscript⟩ := isScript_turn hb op
    intro place source hmem
    obtain ⟨⟨a, w⟩, hw, rfl⟩ := List.mem_map.1 hmem
    rcases List.mem_append.1 hw with hw | hw
    · obtain ⟨w', hw', heq⟩ := List.mem_map.1 hw
      cases heq
      obtain ⟨i, hi, hwriting⟩ := List.mem_flatMap.1 hw'
      exact Instruction.areOf_writings hthere (hscript i hi) place source hwriting
    · refine ih (fun a => ?_) place source (List.mem_map_of_mem hw)
      by_cases ha : a = x
      · subst ha
        exact ⟨b', by rw [Function.update_self, hb']⟩
      · rw [Function.update_of_ne ha]
        exact hms a

/-! ### Each source has its own texture -/

theorem eq_of_nodup_filterMap {α β : Type} {f : α → Option β} {xs : List α}
    (h : (xs.filterMap f).Nodup) {x x' : α} (hx : x ∈ xs) (hx' : x' ∈ xs) {y : β}
    (hy : f x = some y) (hy' : f x' = some y) : x = x' := by
  refine Classical.byContradiction fun hne => ?_
  have happart : xs.Pairwise fun x x' => ∀ y, f x = some y → ∀ y', f x' = some y' → y ≠ y' :=
    List.pairwise_filterMap.1 h
  have hsymm : Std.Symm fun x x' => ∀ y, f x = some y → ∀ y', f x' = some y' → y ≠ y' :=
    ⟨fun _ _ h y hy y' hy' => (h y' hy' y hy).symm⟩
  exact happart.forall hx hx' hne y hy y hy' rfl

variable {δ : Type} {d : Traced δ} {before more : List Use} {t : TextureId}
  {source source' : TextureSource}

/-- The texture of a file or a color that the cache did not have came about since. -/
theorem TextureSource.new_or_held (hgrown : ImageCache.Grown files c₀ more c)
    (hsource : source.IsOf c₀ there) (ht : source.texture? c = some t) :
    (source = .held t ∧ t ∈ there) ∨
      (t ∈ more.filterMap Use.newTexture? ∧ ∀ other, source ≠ .held other) := by
  have hgives := hgrown.gives hsource ht
  cases source with
  | held texture =>
    obtain rfl : t = texture := hgives
    exact .inl ⟨rfl, hsource⟩
  | file key =>
    obtain ⟨image, -, hmem⟩ := hgives
    exact .inr ⟨List.mem_filterMap.2 ⟨_, hmem, rfl⟩, nofun⟩
  | color rgba => exact .inr ⟨List.mem_filterMap.2 ⟨_, hgives, rfl⟩, nofun⟩

theorem TextureSource.exists_entry {key : Path} (ht : texture? c (.file key) = some t) :
    ∃ entry, (key, entry) ∈ c.entries ∧ entry.toOption.map (·.texture) = some t := by
  rw [texture?, Option.map_bind] at ht
  obtain ⟨entry, hentry, htexture⟩ := Option.bind_eq_some_iff.1 ht
  exact ⟨entry, Ordered.mem_of_get? hentry, htexture⟩

theorem TextureSource.exists_solid {rgba : Color} (ht : texture? c (.color rgba) = some t) :
    ∃ descriptor, (rgba, descriptor) ∈ c.solids ∧ descriptor.texture = t := by
  obtain ⟨descriptor, hmem, htexture⟩ := Option.map_eq_some_iff.1 ht
  exact ⟨descriptor, Ordered.mem_of_get? hmem, htexture⟩

/-- Different files and colors have different textures, as long as no texture came about twice. -/
theorem TextureSource.eq_of_not_held (hbalanced : c.Balanced d) (hfresh : d.newTextures.Nodup)
    (hnot : ∀ other, source ≠ .held other) (hnot' : ∀ other, source' ≠ .held other)
    (ht : source.texture? c = some t) (ht' : source'.texture? c = some t) : source = source' := by
  obtain ⟨-, hnodup, -⟩ := hbalanced.accounts.exact hfresh
  obtain ⟨hfiles, hcolors, hapart⟩ := List.nodup_append.1 hnodup
  have hdifferent : ∀ {key : Path} {rgba : Color}, texture? c (.file key) = some t →
      texture? c (.color rgba) ≠ some t := by
    intro key rgba hkey hrgba
    obtain ⟨entry, hentry, htexture⟩ := exists_entry hkey
    obtain ⟨descriptor, hmem, rfl⟩ := exists_solid hrgba
    exact hapart _ (List.mem_filterMap.2 ⟨_, hentry, htexture⟩) _ (List.mem_map_of_mem hmem) rfl
  cases source with
  | held other => exact absurd rfl (hnot other)
  | file key =>
    cases source' with
    | held other => exact absurd rfl (hnot' other)
    | file key' =>
      obtain ⟨entry, hentry, htexture⟩ := exists_entry ht
      obtain ⟨entry', hentry', htexture'⟩ := exists_entry ht'
      have heq : (key, entry) = (key', entry') :=
        eq_of_nodup_filterMap hfiles hentry hentry' htexture htexture'
      rw [(Prod.mk.inj heq).1]
    | color rgba => exact absurd ht' (hdifferent ht)
  | color rgba =>
    cases source' with
    | held other => exact absurd rfl (hnot' other)
    | file key' => exact absurd ht (hdifferent ht')
    | color rgba' =>
      obtain ⟨descriptor, hmem, rfl⟩ := exists_solid ht
      obtain ⟨descriptor', hmem', htexture⟩ := exists_solid ht'
      have heq : (rgba, descriptor) = (rgba', descriptor') :=
        List.inj_on_of_nodup_map hcolors hmem hmem' htexture.symm
      rw [(Prod.mk.inj heq).1]

/-- Different sources have different textures, as long as no texture came about twice. -/
theorem TextureSource.eq_of_texture? (hgrown : ImageCache.Grown files c₀ more c)
    (hbalanced : c.Balanced d) (hfresh : d.newTextures.Nodup) (huses : d.uses = before ++ more)
    (hsource : source.IsOf c₀ (before.filterMap Use.newTexture?))
    (hsource' : source'.IsOf c₀ (before.filterMap Use.newTexture?))
    (ht : source.texture? c = some t) (ht' : source'.texture? c = some t) : source = source' := by
  have happart : t ∈ before.filterMap Use.newTexture? → t ∉ more.filterMap Use.newTexture? := by
    rw [Traced.newTextures, huses, List.filterMap_append] at hfresh
    exact fun hold hnew => (List.nodup_append.1 hfresh).2.2 t hold t hnew rfl
  rcases new_or_held hgrown hsource ht with ⟨rfl, hold⟩ | ⟨hnew, hnot⟩ <;>
    rcases new_or_held hgrown hsource' ht' with ⟨rfl, hold'⟩ | ⟨hnew', hnot'⟩
  · rfl
  · exact absurd hnew' (happart hold)
  · exact absurd hnew (happart hold')
  · exact eq_of_not_held hbalanced hfresh hnot hnot' ht ht'

end Sources

/-! ## Two runs from one renderer -/

/-- The contents are the same but for the numbers of textures. -/
def Content.Like (renamed : TextureId → TextureId → Prop) :
    Content TextureId → Content TextureId → Prop
  | value v, value v' => v = v'
  | texture t, texture t' => renamed t t'
  | _, _ => False

/-- The textures of two runs that come from one source. -/
def SameSource (c : ImageCache) (there : List TextureId) (c₁ c₂ : ImageCache)
    (t t' : TextureId) : Prop :=
  ∃ source : TextureSource, source.IsOf c there ∧ source.texture? c₁ = some t ∧
    source.texture? c₂ = some t'

/-- How the textures of one run are named in the other: those that were there before as before, and
others like one with the same picture. -/
structure Renaming {δ : Type} (r r₁ r₂ : Renderer (Traced δ))
    (renamed : TextureId → TextureId → Prop) : Prop where
  unique : Relator.BiUnique renamed
  old : ∀ t ∈ r.device.newTextures, renamed t t
  picture : ∀ t t', renamed t t' → t ∈ r.device.newTextures ∧ t' = t ∨
    ∃ image, .uploaded image t ∈ r₁.device.uses.drop r.device.uses.length ∧
      .uploaded image t' ∈ r₂.device.uses.drop r.device.uses.length

/-- A renderer that keeps its device in good order went on from another one, where it uploads what
it needs of the files. -/
structure GoesOn {δ : Type} (files : FileTree) (r r₁ : Renderer (Traced δ)) : Prop where
  proper : r₁.Proper
  fresh : r₁.device.newTextures.Nodup
  uses : ∃ more, r₁.device.uses = r.device.uses ++ more ∧
    ImageCache.Grown files r.images more r₁.images

section GoesOn

variable {δ : Type} {files : FileTree} {r r₁ r₂ : Renderer (Traced δ)} {t : TextureId}
  {source source' : TextureSource}

theorem GoesOn.eq_of_texture? (h : GoesOn files r r₁)
    (hsource : source.IsOf r.images r.device.newTextures)
    (hsource' : source'.IsOf r.images r.device.newTextures)
    (ht : source.texture? r₁.images = some t) (ht' : source'.texture? r₁.images = some t) :
    source = source' := by
  obtain ⟨more, huses, hgrown⟩ := h.uses
  exact TextureSource.eq_of_texture? hgrown h.proper.images h.fresh huses hsource hsource' ht ht'

theorem GoesOn.gives (h : GoesOn files r r₁) (hsource : source.IsOf r.images r.device.newTextures)
    (ht : source.texture? r₁.images = some t) :
    source.Gives r.images files (r₁.device.uses.drop r.device.uses.length) t := by
  obtain ⟨more, huses, hgrown⟩ := h.uses
  rw [huses, List.drop_left]
  exact hgrown.gives hsource ht

/-- The textures of one source are a renaming. -/
theorem renaming_sameSource (h₁ : GoesOn files r r₁) (h₂ : GoesOn files r r₂) :
    Renaming r r₁ r₂ (SameSource r.images r.device.newTextures r₁.images r₂.images) where
  unique := by
    constructor
    · rintro t t' u ⟨source, hsource, ht, hu⟩ ⟨source', hsource', ht', hu'⟩
      rw [h₂.eq_of_texture? hsource hsource' hu hu'] at ht
      exact Option.some.inj (ht.symm.trans ht')
    · rintro t u u' ⟨source, hsource, ht, hu⟩ ⟨source', hsource', ht', hu'⟩
      rw [h₁.eq_of_texture? hsource hsource' ht ht'] at hu
      exact Option.some.inj (hu.symm.trans hu')
  old t ht := ⟨.held t, ht, rfl, rfl⟩
  picture := by
    rintro t t' ⟨source, hsource, ht, ht'⟩
    have hgives := h₁.gives hsource ht
    have hgives' := h₂.gives hsource ht'
    cases source with
    | held texture =>
      obtain rfl : t = texture := hgives
      exact .inl ⟨hsource, hgives'⟩
    | file key =>
      obtain ⟨image, himage, hmem⟩ := hgives
      obtain ⟨image', himage', hmem'⟩ := hgives'
      obtain rfl := Except.ok.inj (himage.symm.trans himage')
      exact .inr ⟨image, hmem, hmem'⟩
    | color rgba => exact .inr ⟨_, hgives, hgives'⟩

/-- Two contents are the same but for the numbers of textures exactly if they are told the same. -/
theorem like_iff (h₁ : GoesOn files r r₁) (h₂ : GoesOn files r r₂)
    {x x' : Content TextureSource} {y y' : Content TextureId} (hy : Content.Is r₁.images x y)
    (hy' : Content.Is r₂.images x' y')
    (hx : ∀ source, x = .texture source → source.IsOf r.images r.device.newTextures)
    (hx' : ∀ source, x' = .texture source → source.IsOf r.images r.device.newTextures) :
    Content.Like (SameSource r.images r.device.newTextures r₁.images r₂.images) y y' ↔ x = x' := by
  rcases hy.eq_or with ⟨v, rfl, rfl⟩ | ⟨source, t, rfl, rfl, ht⟩ <;>
    rcases hy'.eq_or with ⟨v', rfl, rfl⟩ | ⟨source', t', rfl, rfl, ht'⟩
  · exact ⟨congrArg Content.value, Content.value.inj⟩
  · exact ⟨False.elim, nofun⟩
  · exact ⟨False.elim, nofun⟩
  · constructor
    · rintro ⟨common, hcommon, hu, hu'⟩
      rw [h₁.eq_of_texture? (hx _ rfl) hcommon ht hu, h₂.eq_of_texture? (hx' _ rfl) hcommon ht' hu']
    · rintro ⟨⟩
      exact ⟨source, hx _ rfl, ht, ht'⟩

/-- Two runs left the same in a place, but for the numbers of textures, exactly if what is told of
them ends with the same for the place. -/
theorem rel_lastAt_iff (h₁ : GoesOn files r r₁) (h₂ : GoesOn files r r₂)
    {told told' : List (Place × Content TextureSource)}
    {writings writings' : List (Place × Content TextureId)}
    (hwritings : Realized r₁.images told writings) (hwritings' : Realized r₂.images told' writings')
    (htold : AreOf r.images r.device.newTextures told)
    (htold' : AreOf r.images r.device.newTextures told') (place : Place) :
    Option.Rel (Content.Like (SameSource r.images r.device.newTextures r₁.images r₂.images))
      (lastAt place writings) (lastAt place writings') ↔
        lastAt place told = lastAt place told' := by
  have hrel := lastAt_rel hwritings place
  have hrel' := lastAt_rel hwritings' place
  have hlast : ∀ x, lastAt place told = some x → ∀ source, x = .texture source →
      source.IsOf r.images r.device.newTextures :=
    fun x hx source heq => htold place source (heq ▸ mem_of_lastAt hx)
  have hlast' : ∀ x, lastAt place told' = some x → ∀ source, x = .texture source →
      source.IsOf r.images r.device.newTextures :=
    fun x hx source heq => htold' place source (heq ▸ mem_of_lastAt hx)
  generalize lastAt place told = last at hrel hlast ⊢
  generalize lastAt place told' = last' at hrel' hlast' ⊢
  generalize lastAt place writings = written at hrel ⊢
  generalize lastAt place writings' = written' at hrel' ⊢
  cases hrel with
  | none =>
    cases hrel' with
    | none => exact ⟨fun _ => rfl, fun _ => .none⟩
    | some => exact ⟨nofun, nofun⟩
  | some hy =>
    cases hrel' with
    | none => exact ⟨nofun, nofun⟩
    | some hy' =>
      have hlike := like_iff h₁ h₂ hy hy' (hlast _ rfl) (hlast' _ rfl)
      refine ⟨fun h => ?_, fun h => .some (hlike.2 (Option.some.inj h))⟩
      cases h with
      | some h => rw [hlike.1 h]

end GoesOn

/-! ## Independence -/

namespace Material

section Disturbed

variable {ι τ : Type} [DecidableEq ι] {a : ι} {place : Place} {content : Content τ}

/-- If another material was the last to write the place, it wrote what would be there without it. -/
def Undisturbed (a : ι) (place : Place) (before : List (Place × Content τ))
    (told : List (ι × Place × Content τ)) : Prop :=
  ∀ front other content back, told = front ++ (other, place, content) :: back →
    (∀ w ∈ back, w.2.1 ≠ place) → other ≠ a →
      lastAt place (before ++ (own a told).map (·.2)) = some content

omit [DecidableEq ι] in
/-- Either nothing is written to the place, or there is a last that is. -/
theorem exists_last (place : Place) (told : List (ι × Place × Content τ)) :
    (∀ w ∈ told, w.2.1 ≠ place) ∨ ∃ front other content back,
      told = front ++ (other, place, content) :: back ∧ ∀ w ∈ back, w.2.1 ≠ place := by
  induction told with
  | nil => exact .inl nofun
  | cons w rest ih =>
    rcases ih with hnone | ⟨front, other, content, back, rfl, hback⟩
    · obtain ⟨other, place', content⟩ := w
      by_cases hplace : place' = place
      · subst hplace
        exact .inr ⟨[], other, content, rest, rfl, hnone⟩
      · refine .inl fun w hw => ?_
        rcases List.mem_cons.1 hw with rfl | hw
        · exact hplace
        · exact hnone w hw
    · exact .inr ⟨w :: front, other, content, back, rfl, hback⟩

/-- A place is undisturbed exactly if it ends with what it would end with without the others. -/
theorem undisturbed_iff {before : List (Place × Content τ)} {told : List (ι × Place × Content τ)} :
    Undisturbed a place before told ↔
      lastAt place (before ++ told.map (·.2)) =
        lastAt place (before ++ (own a told).map (·.2)) := by
  have hlast : ∀ {told : List (ι × Place × Content τ)} {front other content back},
      told = front ++ (other, place, content) :: back → (∀ w ∈ back, w.2.1 ≠ place) →
      lastAt place (before ++ told.map (·.2)) = some content := by
    rintro _ front other content back rfl hback
    rw [List.map_append, List.map_cons, ← List.append_assoc]
    exact lastAt_append_cons (List.forall_mem_map.2 hback)
  constructor
  · intro h
    rcases exists_last place told with hnone | ⟨front, other, content, back, hsplit, hback⟩
    · have hnone' : ∀ w ∈ own a told, w.2.1 ≠ place := fun w hw => hnone w (List.mem_filter.1 hw).1
      rw [lastAt_append, lastAt_append, lastAt_eq_none_iff.2 (List.forall_mem_map.2 hnone),
        lastAt_eq_none_iff.2 (List.forall_mem_map.2 hnone')]
    · rw [hlast hsplit hback]
      by_cases ha : other = a
      · subst ha
        have hown : own other told =
            own other front ++ (other, place, content) :: own other back := by
          rw [hsplit, own_append]
          exact congrArg _ (List.filter_cons_of_pos (decide_eq_true rfl))
        exact (hlast hown fun w hw => hback w (List.mem_filter.1 hw).1).symm
      · exact (h front other content back hsplit hback ha).symm
  · intro h front other content back hsplit hback _
    rw [← h, hlast hsplit hback]

end Disturbed

section Independent

variable {δ ι : Type} [Device δ] [DecidableEq ι] {ms : ι → Material} {files : FileTree}
  {r : Renderer (Traced δ)} {history before after : List (ι × Operation)} {a : ι}

/-- While the materials take turns, their renderer goes on. -/
theorem takeTurns_goesOn (hproper : r.Proper)
    (howned : ∀ a, ∃ b, (ms a).binding? = some b ∧ b.program.id ∈ r.owned)
    (hreads : ∀ step ∈ history, step.2.ReadsFrom files)
    (hfresh : (takeTurns ms r history).2.device.newTextures.Nodup) :
    GoesOn files r (takeTurns ms r history).2 := by
  obtain ⟨-, more, huses, hgrown, -⟩ : Renderer.Writes files r.images [] r _ _ :=
    takeTurns_writes (.refl files r.images) hreads
  exact ⟨takeTurns_proper hproper howned hreads, hfresh, more, huses, hgrown⟩

/-- What was written at any moment is what was written before and what is told of the materials. -/
theorem realized_takeTurns (hreads : ∀ step ∈ before ++ after, step.2.ReadsFrom files) :
    Realized (takeTurns ms r (before ++ after)).2.images
      (r.device.uses.filterMap Use.heldWriting? ++ (told r.images files ms before).map (·.2))
      (takeTurns ms r before).2.device.writings := by
  obtain ⟨-, more, huses, hgrown, hrealized⟩ : Renderer.Writes files r.images [] r
      (takeTurns ms r before).2 ((told r.images files ms before).map (·.2)) :=
    takeTurns_writes (.refl files r.images) fun step hstep =>
      hreads step (List.mem_append_left _ hstep)
  obtain ⟨hpersists, -⟩ : Renderer.Writes files r.images ([] ++ more) (takeTurns ms r before).2
      (takeTurns (takeTurns ms r before).1 (takeTurns ms r before).2 after).2 _ :=
    takeTurns_writes hgrown fun step hstep => hreads step (List.mem_append_right _ hstep)
  rw [takeTurns_append, Traced.writings, huses, List.filterMap_append]
  exact (realized_held _ _).append (hrealized.mono hpersists)

/-- Materials take turns, each with a program in the cache of programs, whether or not they share
it. Then the textures can be named in such a way that, whenever a material draws, a uniform or a
unit holds what it would hold if the material had been alone, exactly if the others left it
undisturbed. -/
theorem like_alone_iff (hproper : r.Proper)
    (howned : ∀ a, ∃ b, (ms a).binding? = some b ∧ b.program.id ∈ r.owned)
    (hreads : ∀ step ∈ history, step.2.ReadsFrom files)
    (hfresh : (takeTurns ms r history).2.device.newTextures.Nodup)
    (hfresh' : (takeTurns ms r (own a history)).2.device.newTextures.Nodup) :
    ∃ renamed, Renaming r (takeTurns ms r history).2 (takeTurns ms r (own a history)).2 renamed ∧
      ∀ before p after, history = before ++ (a, .drawPartition p) :: after → ∀ place,
        (Option.Rel (Content.Like renamed)
            (lastAt place (takeTurns ms r before).2.device.writings)
            (lastAt place (takeTurns ms r (own a before)).2.device.writings) ↔
          Undisturbed a place (r.device.uses.filterMap Use.heldWriting?)
            (told r.images files ms before)) := by
  have hreads' : ∀ step ∈ own a history, step.2.ReadsFrom files := fun step hstep =>
    hreads step (List.mem_filter.1 hstep).1
  have hall := takeTurns_goesOn hproper howned hreads hfresh
  have halone := takeTurns_goesOn hproper howned hreads' hfresh'
  refine ⟨_, renaming_sameSource hall halone, ?_⟩
  rintro before p after rfl place
  have hthere : ∀ t ∈ r.images.textures, t ∈ r.device.newTextures := fun t ht =>
    hproper.images.accounts.mem_iff.2 (List.mem_append_right _ ht)
  have hareOf : ∀ history : List (ι × Operation), AreOf r.images r.device.newTextures
      (r.device.uses.filterMap Use.heldWriting? ++
        (told r.images files ms history).map (·.2)) := by
    intro history place source hmem
    rcases List.mem_append.1 hmem with hmem | hmem
    · exact areOf_held hproper.uses r.images place source hmem
    · exact areOf_told hthere (fun a => (howned a).imp fun _ h => h.1) history place source hmem
  rw [own_append] at hreads' halone ⊢
  rw [undisturbed_iff, ← told_own r.images files a rfl before]
  exact rel_lastAt_iff hall halone (realized_takeTurns hreads) (realized_takeTurns hreads')
    (hareOf before) (hareOf (own a before)) place

end Independent

/-! ## Two tiles -/

/-- The files of the poster, with the image for the first of two tiles. -/
def tileFiles : FileTree :=
  { posterFiles with files := (["w.1001.tga"], posterBytes) :: posterFiles.files }

/-- The shader of the poster. -/
def posterShader : Except GenerationError GeneratedShader :=
  ShaderGenerator.generate {} (posterDocument "top" "file") tileFiles "top"
    { transparency := Transparency.isTransparent (posterDocument "top" "file") "top" }

/-- The program of the poster. -/
def posterProgram (shader : GeneratedShader) : CompiledProgram :=
  ⟨⟨1⟩, shader.name, ⟨shader.vertexSource, shader.pixelSource⟩⟩

/-- The poster for a tile, with its shader. -/
def posterFor (tile : String) (shader : GeneratedShader) : Material :=
  { new "top" (some tile) with state := .generated (.new shader (posterProgram shader)) }

/-- The renderer after the program of the poster was compiled. -/
def sharedRenderer (shader : GeneratedShader) : Renderer (Traced Tally) :=
  (posterRenderer.program shader.name ⟨shader.vertexSource, shader.pixelSource⟩).2

/-- The posters for two tiles share their program. -/
theorem generate_tiles {shader : GeneratedShader} (h : posterShader = .ok shader) :
    (new "top" (some "1001")).generate {} (posterDocument "top" "file") tileFiles {}
        posterRenderer = (.ok (posterFor "1001" shader), sharedRenderer shader) ∧
      (new "top" (some "1002")).generate {} (posterDocument "top" "file") tileFiles {}
        (sharedRenderer shader) = (.ok (posterFor "1002" shader), sharedRenderer shader) := by
  have hagain : ∀ name source, (posterRenderer.program name source).2.program name source =
      (.ok ⟨⟨1⟩, name, source⟩, (posterRenderer.program name source).2) := by
    intro name source
    have hfound : (posterRenderer.program name source).2.programs.find? source =
        some ⟨⟨1⟩, name, source⟩ := List.find?_cons_of_pos (decide_eq_true rfl)
    unfold Renderer.program ProgramCache.acquire at hfound ⊢
    dsimp only at hfound ⊢
    rw [hfound]
  have hgenerate : ∀ {tile : String} {r r' : Renderer (Traced Tally)},
      r.program shader.name ⟨shader.vertexSource, shader.pixelSource⟩ =
        (.ok (posterProgram shader), r') →
      (new "top" (some tile)).generate {} (posterDocument "top" "file") tileFiles {} r =
        (.ok (posterFor tile shader), r') := by
    intro tile r r' hprogram
    unfold posterShader at h
    unfold generate
    simp only [new] at h ⊢
    rw [h]
    simp only [hprogram]
    rfl
  exact ⟨hgenerate rfl, hgenerate (hagain _ _)⟩

/-- The posters for both tiles have their images bound, without a color for a missing one, and are
drawn, one after the other. -/
def tileTurns : List (Bool × Operation) :=
  [false, true].flatMap fun tile =>
    [(tile, .bind), (tile, .bindImages tileFiles {} none), (tile, .drawPartition ⟨"", []⟩)]

/-- The materials of two tiles. -/
def tiles (shader : GeneratedShader) (tile : Bool) : Material :=
  posterFor (if tile then "1002" else "1001") shader

/-- Only the first tile has an image, and its sampler is all that is written besides. -/
theorem posterShader_ok : ∃ shader, posterShader = .ok shader ∧
    (∀ turns ∈ [tileTurns, own true tileTurns, own false tileTurns],
      (takeTurns (tiles shader) (sharedRenderer shader) turns).2.device.newTextures.Nodup) ∧
    lastAt (.uniform ⟨1⟩ "top_file") (takeTurns (tiles shader) (sharedRenderer shader)
      (tileTurns.take 5)).2.device.writings = some (.value (.sampler 0)) ∧
    lastAt (.uniform ⟨1⟩ "top_file") (takeTurns (tiles shader) (sharedRenderer shader)
      (own true (tileTurns.take 5))).2.device.writings = none := by
  have heval : posterShader.toOption.map (fun shader =>
      let last := fun turns => lastAt (.uniform ⟨1⟩ "top_file")
        (takeTurns (tiles shader) (sharedRenderer shader) turns).2.device.writings
      decide ((∀ turns ∈ [tileTurns, own true tileTurns, own false tileTurns],
          (takeTurns (tiles shader) (sharedRenderer shader) turns).2.device.newTextures.Nodup) ∧
        last (tileTurns.take 5) = some (.value (.sampler 0)) ∧
        last (own true (tileTurns.take 5)) = none)) = some true := by
    decide +kernel
  obtain ⟨shader, hshader, hfacts⟩ := Graph.Sample.exists_ok_of_map heval
  exact ⟨shader, hshader, of_decide_eq_true hfacts⟩

theorem sharedRenderer_proper (shader : GeneratedShader) : (sharedRenderer shader).Proper ∧
    ∀ tile, ∃ b, (tiles shader tile).binding? = some b ∧
      b.program.id ∈ (sharedRenderer shader).owned := by
  have hstart : posterRenderer.Proper :=
    ⟨Use.proper_nil, ⟨List.nodup_nil, .refl _⟩, ProgramSession.orderly_start _ _⟩
  obtain ⟨hproper, -, hmem⟩ :=
    hstart.program shader.name ⟨shader.vertexSource, shader.pixelSource⟩
  refine ⟨hproper, fun tile => ⟨.new shader (posterProgram shader), rfl, ?_⟩⟩
  exact List.mem_map_of_mem (hmem (posterProgram shader) rfl)

/-- When the first tile is drawn, it has what it would have alone. -/
theorem like_alone_iff_tiles : ∃ shader, posterShader = .ok shader ∧
    (sharedRenderer shader).Proper ∧
    (∀ tile, ∃ b, (tiles shader tile).binding? = some b ∧
      b.program.id ∈ (sharedRenderer shader).owned) ∧
    (∀ step ∈ tileTurns, step.2.ReadsFrom tileFiles) ∧
    ∃ renamed, Renaming (sharedRenderer shader)
        (takeTurns (tiles shader) (sharedRenderer shader) tileTurns).2
        (takeTurns (tiles shader) (sharedRenderer shader) (own false tileTurns)).2 renamed ∧
      ∀ place, Option.Rel (Content.Like renamed)
        (lastAt place (takeTurns (tiles shader) (sharedRenderer shader)
          (tileTurns.take 2)).2.device.writings)
        (lastAt place (takeTurns (tiles shader) (sharedRenderer shader)
          (own false (tileTurns.take 2))).2.device.writings) := by
  obtain ⟨shader, hshader, hfresh, -, -⟩ := posterShader_ok
  obtain ⟨hproper, howned⟩ := sharedRenderer_proper shader
  have hreads : ∀ step ∈ tileTurns, step.2.ReadsFrom tileFiles := by
    intro step hstep
    simp only [tileTurns, List.flatMap_cons, List.flatMap_nil, List.append_nil,
      List.cons_append, List.nil_append, List.mem_cons, List.not_mem_nil, or_false] at hstep
    rcases hstep with rfl | rfl | rfl | rfl | rfl | rfl <;> trivial
  obtain ⟨renamed, hrenamed, hlike⟩ := like_alone_iff hproper howned hreads
    (hfresh tileTurns (by simp)) (hfresh (own false tileTurns) (by simp))
  refine ⟨shader, hshader, hproper, howned, hreads, renamed, hrenamed, fun place => ?_⟩
  refine (hlike (tileTurns.take 2) ⟨"", []⟩ (tileTurns.drop 3) rfl place).2 ?_
  intro front other content back hsplit _ hother
  have hown : told (sharedRenderer shader).images tileFiles (tiles shader)
      (own false (tileTurns.take 2)) = own false
        (told (sharedRenderer shader).images tileFiles (tiles shader) (tileTurns.take 2)) :=
    told_own _ _ _ rfl _
  have hmem : (other, place, content) ∈ own false (told (sharedRenderer shader).images tileFiles
      (tiles shader) (tileTurns.take 2)) := by
    rw [← hown]
    show _ ∈ told _ _ _ (tileTurns.take 2)
    rw [hsplit]
    exact List.mem_append_right _ List.mem_cons_self
  exact absurd (of_decide_eq_true (List.mem_filter.1 hmem).2) hother

/-- The tiles share their program, so that the second one is drawn with the image of the first. -/
theorem not_like_alone_tiles : ∃ shader, posterShader = .ok shader ∧
    (new "top" (some "1001")).generate {} (posterDocument "top" "file") tileFiles {}
      posterRenderer = (.ok (tiles shader false), sharedRenderer shader) ∧
    (new "top" (some "1002")).generate {} (posterDocument "top" "file") tileFiles {}
      (sharedRenderer shader) = (.ok (tiles shader true), sharedRenderer shader) ∧
    (∀ tile, (tiles shader tile).program? = some (posterProgram shader)) ∧
    ∃ before p, tileTurns = before ++ [(true, .drawPartition p)] ∧ ∀ renamed,
      ¬ Option.Rel (Content.Like renamed)
        (lastAt (.uniform (posterProgram shader).id "top_file")
          (takeTurns (tiles shader) (sharedRenderer shader) before).2.device.writings)
        (lastAt (.uniform (posterProgram shader).id "top_file")
          (takeTurns (tiles shader) (sharedRenderer shader)
            (own true before)).2.device.writings) := by
  obtain ⟨shader, hshader, -, hall, halone⟩ := posterShader_ok
  obtain ⟨hfirst, hsecond⟩ := generate_tiles hshader
  refine ⟨shader, hshader, hfirst, hsecond, fun tile => rfl, tileTurns.take 5, ⟨"", []⟩, rfl,
    fun renamed hlike => ?_⟩
  change Option.Rel _ (lastAt (.uniform ⟨1⟩ "top_file") _) (lastAt (.uniform ⟨1⟩ "top_file") _)
    at hlike
  rw [hall, halone] at hlike
  cases hlike

end Material

end MaterialViewer
