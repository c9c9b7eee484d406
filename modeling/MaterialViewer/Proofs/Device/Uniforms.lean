import MaterialViewer.Proofs.Device.Driven

/-!
# Proofs: uniforms of a headless device

What is read back from a program after commands. A uniform holds the value written last; other
commands leave it, as long as the program is not given up.
-/

namespace MaterialViewer.Headless

variable {d d' : Headless} {p q : ProgramId} {name : String} {value : UniformValue} {c : Command}

theorem program?_modifyProgram (d : Headless) (p q : ProgramId)
    (f : HeadlessProgram → HeadlessProgram) :
    (d.modifyProgram p f).program? q = if q = p then (d.program? p).map f else d.program? q := by
  unfold modifyProgram
  cases hp : d.program? p with
  | none =>
    by_cases hq : q = p
    · rw [if_pos hq, hq, Option.map_none]
      exact hp
    · rw [if_neg hq]
  | some program =>
    show Ordered.get? q (Ordered.put p (f program) d.programs) = _
    by_cases hq : q = p
    · rw [if_pos hq, hq, Ordered.get?_put_self, Option.map_some]
    · rw [if_neg hq, Ordered.get?_put_of_ne hq]
      rfl

theorem uniform?_modifyProgram {f : HeadlessProgram → HeadlessProgram}
    (hf : ∀ program, Ordered.get? name (f program).uniforms = Ordered.get? name program.uniforms) :
    (d.modifyProgram q f).uniform? p name = d.uniform? p name := by
  unfold uniform?
  rw [program?_modifyProgram]
  by_cases hpq : p = q
  · rw [if_pos hpq, hpq]
    cases d.program? q with
    | none => rfl
    | some program => exact hf program
  · rw [if_neg hpq]

/-- A uniform of a live program holds what was just written to it. -/
theorem uniform?_setUniform (hlive : d.IsLive p) (name other : String) (value : UniformValue) :
    (d.perform (.setUniform p name value)).uniform? p other =
      if name = other then some value else d.uniform? p other := by
  obtain ⟨program, hprogram⟩ := Option.isSome_iff_exists.1 hlive
  show (d.modifyProgram p fun program =>
    { program with uniforms := Ordered.put name value program.uniforms }).uniform? p other = _
  by_cases hname : name = other
  · unfold uniform?
    rw [program?_modifyProgram, if_pos rfl, if_pos hname, hprogram, hname]
    exact Ordered.get?_put_self other value program.uniforms
  · rw [if_neg hname]
    exact uniform?_modifyProgram fun program => Ordered.get?_put_of_ne (Ne.symm hname) _ _

/-- A command that does not write a uniform leaves it. -/
theorem uniform?_perform (hc : c.IsQuiet) (hname : ∀ value, c ≠ .setUniform p name value) :
    (d.perform c).uniform? p name = d.uniform? p name := by
  cases c with
  | releaseProgram q => exact hc.elim
  | useProgram q => exact hc.elim
  | setUniform q other value =>
    show (d.modifyProgram q _).uniform? p name = _
    by_cases hq : p = q
    · subst hq
      refine uniform?_modifyProgram fun program => Ordered.get?_put_of_ne ?_ _ _
      rintro rfl
      exact hname value rfl
    · unfold uniform?
      rw [program?_modifyProgram, if_neg hq]
  | releaseTexture t => rfl
  | bindTexture t unit sampling => rfl
  | uploadAttribute q other data components => exact uniform?_modifyProgram fun _ => rfl
  | uploadIndices q indices => exact uniform?_modifyProgram fun _ => rfl
  | draw q count =>
    show (d.draw q count).uniform? p name = _
    unfold draw
    split
    · split <;> rfl
    · rfl
  | setBlending on => rfl

theorem uniform?_of_driven {P : Command → Prop} (h : Driven P d d') (hP : ∀ c, P c → c.IsQuiet)
    (hname : ∀ value, ¬ P (.setUniform p name value)) : d'.uniform? p name = d.uniform? p name := by
  refine h.keeps (R := fun d d' => d'.uniform? p name = d.uniform? p name) rfl ?_ ?_
  · intro d₁ c hc ih
    refine (uniform?_perform (hP c hc) ?_).trans ih
    rintro value rfl
    exact hname value hc
  · exact fun d₁ image ih => ih

/-- A device with a program to which nothing was written yet. -/
def blank (p : ProgramId) : Headless := { programs := [(p, { name := "" })] }

theorem blank_program? (p : ProgramId) :
    (blank p).program? p = some { name := "" } := by
  show Ordered.get? p [(p, _)] = _
  rw [Ordered.get?, if_pos rfl]

theorem blank_isLive (p : ProgramId) : (blank p).IsLive p := by
  unfold IsLive
  rw [blank_program?]
  rfl

theorem blank_uniform? (p : ProgramId) (name : String) :
    (blank p).uniform? p name = none := by
  unfold uniform?
  rw [blank_program?]
  rfl

end MaterialViewer.Headless
