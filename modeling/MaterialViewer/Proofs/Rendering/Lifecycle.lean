import MaterialViewer.Proofs.Device.Traced
import MaterialViewer.Proofs.Lighting.LightData

/-!
# Proofs: the life of a material

A material is used by operations one after the other, each on a renderer that others use as well, so
that nothing is known of the renderer from one operation to the next. What phase the material is in
is told by the operations that succeeded: the last of them that generated a shader or made a program
current decides. An operation that asks for more than this is refused, and then neither the material
nor the renderer changes.
-/

namespace MaterialViewer.Material

/-- An operation of a material, with its arguments. -/
inductive Operation
  | generate (g : ShaderGenerator) (d : Document) (files : FileTree) (options : GeneratorOptions)
  | bind
  | bindView (world view projection : Matrix4)
  | bindImages (files : FileTree) (search : SearchPath) (fallback? : Option Color)
  | bindImage (files : FileTree) (search : SearchPath) (uniform name : String)
      (fallback? : Option Color)
  | bindLights (files : FileTree) (search : SearchPath) (rig : LightRig)
      (environment : EnvironmentLighting)
  | bindMesh (mesh : Mesh)
  | drawPartition (p : MeshPartition)
  | setUniform (name : String) (value : Value)

/-- Whether the operation needs the program of the material to have been made current. -/
def Operation.needsBound : Operation → Bool
  | .generate .. | .bind => false
  | _ => true

/-- How far a material is. -/
inductive Phase
  | unbound | generated | bound
deriving DecidableEq

/-- The phase in which an operation ends that succeeds, if it leads to another one. -/
def Operation.leadsTo? : Operation → Option Phase
  | .generate .. => some .generated
  | .bind => some .bound
  | _ => none

/-- The phase of a material. -/
def phase (m : Material) : Phase :=
  match m.state with
  | .unbound => .unbound
  | .generated _ => .generated
  | .bound _ => .bound

variable {δ : Type} [Device δ]

omit [Device δ] in
/-- What there is after an operation, which leaves everything as it was if it failed. -/
def settle (m : Material) (r : Renderer δ) :
    Except MaterialError (Material × Renderer δ) →
      Except MaterialError Unit × Material × Renderer δ
  | .ok (m', r') => (.ok (), m', r')
  | .error e => (.error e, m, r)

/-- Carry out an operation. What it answers besides an error is left out. -/
def perform (m : Material) (op : Operation) (r : Renderer δ) :
    Except MaterialError Unit × Material × Renderer δ :=
  match op with
  | .generate g d files options =>
    match m.generate g d files options r with
    | (.ok m', r') => (.ok (), m', r')
    | (.error e, r') => (.error e, m, r')
  | .bind => m.settle r (m.bind r)
  | .bindView world view projection =>
    m.settle r ((m.bindView world view projection r).map (m, ·))
  | .bindImages files search fallback? =>
    m.settle r ((m.bindImages files search fallback? r).map (·.2))
  | .bindImage files search uniform name fallback? =>
    m.settle r ((m.bindImage files search uniform name fallback? r).map (·.2))
  | .bindLights files search rig environment =>
    m.settle r (m.bindLights files search rig environment r)
  | .bindMesh mesh => m.settle r ((m.bindMesh mesh r).map fun answer => (m, answer.2))
  | .drawPartition p => m.settle r ((m.drawPartition p r).map (m, ·))
  | .setUniform name value =>
    m.settle r ((m.setUniform name value r).map fun answer => (m, answer.2))

/-- The material after operations one after the other, each on the renderer as it is then. -/
def performAll (m : Material) (steps : List (Operation × Renderer δ)) : Material :=
  steps.foldl (fun m step => (m.perform step.1 step.2).2.1) m

/-- The operations that succeed, of those that are carried out one after the other. -/
def successes (m : Material) : List (Operation × Renderer δ) → List Operation
  | [] => []
  | (op, r) :: rest =>
    match m.perform op r with
    | (.ok _, m', _) => op :: successes m' rest
    | (.error _, m', _) => successes m' rest

/-! ## One operation -/

section Perform

variable {m : Material} {b : ShaderBinding} {op : Operation} {r : Renderer δ}

omit [Device δ] in
theorem phase_eq_bound_iff : m.phase = .bound ↔ ∃ b, m.state = .bound b := by
  unfold phase
  cases m.state <;> simp

omit [Device δ] in
theorem phase_eq_unbound_iff : m.phase = .unbound ↔ m.binding? = none := by
  unfold phase binding?
  cases m.state <;> simp

omit [Device δ] in
/-- A material without shader has no program either, and no other material is unbound. -/
theorem state_eq_unbound_iff : m.state = .unbound ↔ m.binding? = none := by
  unfold binding?
  cases m.state <;> simp

omit [Device δ] in
theorem withBound_eq_self (h : m.state = .bound b) : m.withBound b = m := by
  unfold withBound
  rw [← h]

/-- What an operation does on a binding whose program was made current: the binding afterwards and
the renderer. -/
def Operation.onBound (op : Operation) (tile? : Option String) (b : ShaderBinding)
    (r : Renderer δ) : ShaderBinding × Renderer δ :=
  match op with
  | .generate .. | .bind => (b, r)
  | .bindView world view projection => (b, b.bindView world view projection r)
  | .bindImages files search fallback? => (b.bindImages files search tile? fallback? r).2
  | .bindImage files search uniform name fallback? =>
    (b.bindImage files search tile? uniform name fallback? r).2
  | .bindLights files search rig environment => b.bindLights files search rig environment r
  | .bindMesh mesh => (b, (b.bindMesh mesh r).2)
  | .drawPartition p => (b, b.drawPartition p r)
  | .setUniform name value => (b, (b.setUniform name value r).2)

/-- An operation that needs the current program is carried out on the binding. -/
theorem perform_bound (h : m.state = .bound b) (hop : op.needsBound = true) :
    m.perform op r =
      (.ok (), m.withBound (op.onBound m.tile? b r).1, (op.onBound m.tile? b r).2) := by
  have hbound : m.bound = .ok b := by
    unfold bound
    rw [h]
  have hself := withBound_eq_self h
  cases op with
  | generate => cases hop
  | bind => cases hop
  | bindView world view projection =>
    simp only [perform, Material.bindView, hbound, Operation.onBound, hself]
    rfl
  | bindImages files search fallback? =>
    simp only [perform, Material.bindImages, hbound, Operation.onBound]
    rfl
  | bindImage files search uniform name fallback? =>
    simp only [perform, Material.bindImage, hbound, Operation.onBound]
    rfl
  | bindLights files search rig environment =>
    simp only [perform, Material.bindLights, hbound, Operation.onBound]
    rfl
  | bindMesh mesh =>
    simp only [perform, Material.bindMesh, hbound, Operation.onBound, hself]
    rfl
  | drawPartition p =>
    simp only [perform, Material.drawPartition, hbound, Operation.onBound, hself]
    rfl
  | setUniform name value =>
    simp only [perform, Material.setUniform, hbound, Operation.onBound, hself]
    rfl

/-- An operation that needs the current program is refused without one. -/
theorem perform_notBound (h : m.phase ≠ .bound) (hop : op.needsBound = true) :
    m.perform op r = (.error (.notBound m.element), m, r) := by
  have hbound : m.bound = .error (.notBound m.element) := by
    unfold bound
    split
    · rename_i b hstate
      exact absurd (phase_eq_bound_iff.2 ⟨b, hstate⟩) h
    · rfl
  cases op with
  | generate => cases hop
  | bind => cases hop
  | bindView => simp only [perform, Material.bindView, hbound]; rfl
  | bindImages => simp only [perform, Material.bindImages, hbound]; rfl
  | bindImage => simp only [perform, Material.bindImage, hbound]; rfl
  | bindLights => simp only [perform, Material.bindLights, hbound]; rfl
  | bindMesh => simp only [perform, Material.bindMesh, hbound]; rfl
  | drawPartition => simp only [perform, Material.drawPartition, hbound]; rfl
  | setUniform => simp only [perform, Material.setUniform, hbound]; rfl

theorem perform_bind (h : m.binding? = some b) :
    m.perform .bind r = (.ok (), m.withBound b, b.use r) := by
  simp only [perform, bind_ok h, settle]

/-- Without a shader there is no program to make current. -/
theorem perform_bind_unbound (h : m.binding? = none) :
    m.perform .bind r = (.error (.notGenerated m.element), m, r) := by
  simp only [perform, Material.bind, h, settle]

/-- What can become of an operation: the answer, and the material and the renderer afterwards. -/
inductive Outcome (m : Material) (r : Renderer δ) :
    Operation → Except MaterialError Unit × Material × Renderer δ → Prop
  | onBound {op : Operation} {b : ShaderBinding} (hstate : m.state = .bound b)
      (hop : op.needsBound = true) :
      Outcome m r op (.ok (), m.withBound (op.onBound m.tile? b r).1, (op.onBound m.tile? b r).2)
  | notBound {op : Operation} (hphase : m.phase ≠ .bound) (hop : op.needsBound = true) :
      Outcome m r op (.error (.notBound m.element), m, r)
  | bind {b : ShaderBinding} (hbinding : m.binding? = some b) :
      Outcome m r .bind (.ok (), m.withBound b, b.use r)
  | notGenerated (hbinding : m.binding? = none) :
      Outcome m r .bind (.error (.notGenerated m.element), m, r)
  | generate {g : ShaderGenerator} {d : Document} {files : FileTree} {options : GeneratorOptions}
      {m' : Material} {r' : Renderer δ}
      (hgenerate : m.generate g d files options r = (.ok m', r')) :
      Outcome m r (.generate g d files options) (.ok (), m', r')
  | refused {g : ShaderGenerator} {d : Document} {files : FileTree} {options : GeneratorOptions}
      {e : MaterialError} {r' : Renderer δ}
      (hgenerate : m.generate g d files options r = (.error e, r')) :
      Outcome m r (.generate g d files options) (.error e, m, r')

/-- An operation other than generating and binding needs the current program. -/
theorem Operation.cases_needsBound (op : Operation) :
    op.needsBound = true ∨ op = .bind ∨ ∃ g d files options, op = .generate g d files options := by
  cases op with
  | generate g d files options => exact .inr (.inr ⟨g, d, files, options, rfl⟩)
  | bind => exact .inr (.inl rfl)
  | _ => exact .inl rfl

theorem perform_outcome (m : Material) (op : Operation) (r : Renderer δ) :
    m.Outcome r op (m.perform op r) := by
  rcases op.cases_needsBound with hop | rfl | ⟨g, d, files, options, rfl⟩
  · by_cases hbound : m.phase = .bound
    · obtain ⟨b, hstate⟩ := phase_eq_bound_iff.1 hbound
      rw [perform_bound hstate hop]
      exact .onBound hstate hop
    · rw [perform_notBound hbound hop]
      exact .notBound hbound hop
  · cases hbinding : m.binding? with
    | none =>
      rw [perform_bind_unbound hbinding]
      exact .notGenerated hbinding
    | some b =>
      rw [perform_bind hbinding]
      exact .bind hbinding
  · unfold perform
    dsimp only
    cases hgenerate : m.generate g d files options r with
    | mk result r' =>
      cases result with
      | ok m' => exact .generate hgenerate
      | error e => exact .refused hgenerate

/-- No operation changes what the material draws. -/
theorem perform_isFor (m : Material) (op : Operation) (r : Renderer δ) :
    (m.perform op r).2.1.element = m.element ∧ (m.perform op r).2.1.tile? = m.tile? := by
  have houtcome := m.perform_outcome op r
  generalize m.perform op r = outcome at houtcome ⊢
  cases houtcome with
  | generate hgenerate =>
    obtain ⟨shader, program, rfl, -⟩ := generate_ok hgenerate
    exact ⟨rfl, rfl⟩
  | _ => exact ⟨rfl, rfl⟩

/-- An operation that fails leaves the material as it was. -/
theorem eq_of_perform_error {e : MaterialError} (h : m.perform op r = (.error e, m', r')) :
    m' = m := by
  have houtcome := h ▸ m.perform_outcome op r
  cases houtcome <;> rfl

/-- An operation that succeeds ends in the phase to which it leads, or in the one before. -/
theorem phase_perform (h : m.perform op r = (.ok (), m', r')) :
    m'.phase = op.leadsTo?.getD m.phase := by
  have houtcome := h ▸ m.perform_outcome op r
  cases houtcome with
  | onBound hstate hop =>
    have hleads : op.leadsTo? = none := by
      cases op with
      | generate => cases hop
      | bind => cases hop
      | _ => rfl
    rw [hleads, Option.getD_none, phase_eq_bound_iff.2 ⟨_, hstate⟩]
    rfl
  | bind hbinding => rfl
  | generate hgenerate =>
    obtain ⟨shader, program, rfl, -⟩ := generate_ok hgenerate
    rfl

end Perform

/-! ## Sequences of operations -/

theorem performAll_isFor (m : Material) (steps : List (Operation × Renderer δ)) :
    (m.performAll steps).element = m.element ∧ (m.performAll steps).tile? = m.tile? := by
  induction steps generalizing m with
  | nil => exact ⟨rfl, rfl⟩
  | cons step rest ih =>
    obtain ⟨helement, htile⟩ := m.perform_isFor step.1 step.2
    obtain ⟨helement', htile'⟩ := ih (m.perform step.1 step.2).2.1
    exact ⟨helement'.trans helement, htile'.trans htile⟩

/-- The last operation that succeeded and leads to a phase decides. -/
theorem phase_performAll (m : Material) (steps : List (Operation × Renderer δ)) :
    (m.performAll steps).phase =
      ((m.successes steps).filterMap Operation.leadsTo?).getLast?.getD m.phase := by
  induction steps generalizing m with
  | nil => rfl
  | cons step rest ih =>
    obtain ⟨op, r⟩ := step
    show (((m.perform op r).2.1).performAll rest).phase = _
    rw [ih, successes]
    obtain ⟨result, m', r', hperform⟩ : ∃ result m' r', m.perform op r = (result, m', r') :=
      ⟨_, _, _, rfl⟩
    rw [hperform]
    cases result with
    | error e => rw [eq_of_perform_error hperform]
    | ok answer =>
      have hphase := phase_perform hperform
      dsimp only
      rw [List.filterMap_cons]
      cases hleads : op.leadsTo? with
      | none => rw [hphase, hleads, Option.getD_none]
      | some phase =>
        rw [hphase, hleads, Option.getD_some, List.getLast?_cons, Option.getD_some]

/-- A renderer of which no use was made yet. -/
def freshRenderer : Renderer (Traced Tally) where
  device := .start {}
  programs := { sourceHash := fun _ => 0 }

/-- A material of the document with a light is bound too early, then generated, used too early,
bound, and generated for a document that does not have its element. -/
def lampSteps : List (Operation × Renderer (Traced Tally)) :=
  [.bind,
    .generate { lights := (LightRig.ofDocument lampDocument).kinds } lampDocument (.empty []) {},
    .bindMesh .cube, .bind,
    .generate {} .empty (.empty []) {}].map (·, freshRenderer)

end MaterialViewer.Material
