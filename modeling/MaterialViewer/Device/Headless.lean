import MaterialViewer.Device.Basic
import MaterialViewer.Ordered
import MaterialViewer.Text.Split

/-!
# Headless devices

A device that draws nothing, but keeps track of everything: live programs with their uniforms and
uploads, live textures and the units they are bound to, and how much was drawn. Programs and
textures are numbered together, from one. A program compiles if both stages have an entry point.
-/

namespace MaterialViewer

/-- A live program. -/
structure HeadlessProgram where
  /-- The name under which it was compiled. -/
  name : String
  /-- The values last written to uniforms. -/
  uniforms : List (String × UniformValue) := []
  /-- The number of vertices uploaded for each attribute. -/
  attributes : List (String × Nat) := []
  /-- The number of uploaded indices. -/
  indexCount : Nat := 0
deriving DecidableEq

/-- The state of a headless device. -/
structure Headless where
  /-- The number given out last. -/
  lastNumber : Nat := 0
  /-- The live programs. -/
  programs : List (ProgramId × HeadlessProgram) := []
  /-- The live textures, with their width and height. -/
  textures : List (TextureId × Nat × Nat) := []
  /-- The texture on each unit. -/
  units : List (Nat × TextureId) := []
  /-- The current program. -/
  current? : Option ProgramId := none
  /-- Whether blending is on. -/
  blending : Bool := false
  /-- The number of draws. -/
  drawCalls : Nat := 0
  /-- The number of triangles drawn. -/
  triangles : Nat := 0
deriving DecidableEq

namespace Headless

/-- What the source of a stage has to contain. -/
def entryPoint : String := "void main()"

/-- The first stage without an entry point. -/
def missingStage? (source : ProgramSource) : Option String :=
  if !Text.occursIn entryPoint source.vertex then some "vertex"
  else if !Text.occursIn entryPoint source.pixel then some "pixel"
  else none

/-- Compile a program. -/
def compile (d : Headless) (name : String) (source : ProgramSource) :
    Except String ProgramId × Headless :=
  match missingStage? source with
  | some stage => (.error s!"{stage} stage has no '{entryPoint}'", d)
  | none =>
    let program : ProgramId := ⟨d.lastNumber + 1⟩
    (.ok program,
      { d with lastNumber := d.lastNumber + 1, programs := d.programs ++ [(program, { name })] })

/-- Upload an image. -/
def createTexture (d : Headless) (image : Image) : TextureId × Headless :=
  let texture : TextureId := ⟨d.lastNumber + 1⟩
  (texture,
    { d with
      lastNumber := d.lastNumber + 1
      textures := d.textures ++ [(texture, image.width, image.height)] })

/-- A live program. -/
def program? (d : Headless) (p : ProgramId) : Option HeadlessProgram := Ordered.get? p d.programs

/-- The value last written to a uniform of a live program. -/
def uniform? (d : Headless) (p : ProgramId) (name : String) : Option UniformValue :=
  (d.program? p).bind fun program => Ordered.get? name program.uniforms

/-- Change a live program. -/
def modifyProgram (d : Headless) (p : ProgramId) (f : HeadlessProgram → HeadlessProgram) :
    Headless :=
  match d.program? p with
  | some program => { d with programs := Ordered.put p (f program) d.programs }
  | none => d

/-- Draw the first `count` indices of a program, if as many were uploaded. -/
def draw (d : Headless) (p : ProgramId) (count : Nat) : Headless :=
  match d.program? p with
  | some program =>
    if program.indexCount < count then d
    else { d with drawCalls := d.drawCalls + 1, triangles := d.triangles + count / 3 }
  | none => d

/-- Carry out a command. Commands for programs that are not live have no effect, except that any
program can be made current. -/
def perform (d : Headless) : Command → Headless
  | .releaseProgram p =>
    { d with
      programs := Ordered.erase p d.programs
      current? := if d.current? = some p then none else d.current? }
  | .useProgram p => { d with current? := some p }
  | .setUniform p name value =>
    d.modifyProgram p fun program =>
      { program with uniforms := Ordered.put name value program.uniforms }
  | .releaseTexture t =>
    { d with
      textures := Ordered.erase t d.textures
      units := d.units.filter (·.2 ≠ t) }
  | .bindTexture t unit _ => { d with units := Ordered.put unit t d.units }
  | .uploadAttribute p name data components =>
    d.modifyProgram p fun program =>
      { program with
        attributes := Ordered.put name (data.length / max components 1) program.attributes }
  | .uploadIndices p indices =>
    d.modifyProgram p fun program => { program with indexCount := indices.length }
  | .draw p count => d.draw p count
  | .setBlending on => { d with blending := on }

instance : Device Headless := ⟨compile, createTexture, perform⟩

end Headless

end MaterialViewer
