import MaterialViewer.Device.Basic
import MaterialViewer.Text.Split

/-!
# Recording devices

A device that does nothing but write down how it was used. Programs and textures are numbered
together, from one. It can be told to refuse sources that contain a given text.
-/

namespace MaterialViewer

/-- One use of a device. -/
inductive DeviceUse
  /-- A program was compiled under a name. -/
  | compiled (program : ProgramId) (name : String)
  /-- The sources of a program were refused. -/
  | refused (name : String)
  /-- An image was uploaded. -/
  | uploaded (texture : TextureId) (image : Image)
  /-- A command was carried out. -/
  | performed (command : Command)
deriving DecidableEq

/-- The state of a recording device. -/
structure Recording where
  /-- The number given out last. -/
  lastNumber : Nat := 0
  /-- Sources that contain this text are refused, unless it is empty. -/
  refuses : String := ""
  /-- The uses so far, in order. -/
  uses : List DeviceUse := []
deriving DecidableEq

namespace Recording

/-- Write down a use. -/
def note (d : Recording) (entry : DeviceUse) : Recording := { d with uses := d.uses ++ [entry] }

/-- Whether the sources of a program are refused. -/
def isRefused (d : Recording) (source : ProgramSource) : Bool :=
  d.refuses ≠ "" && (Text.occursIn d.refuses source.vertex || Text.occursIn d.refuses source.pixel)

/-- Compile a program. -/
def compile (d : Recording) (name : String) (source : ProgramSource) :
    Except String ProgramId × Recording :=
  if d.isRefused source then (.error "rejected", d.note (.refused name))
  else
    let program : ProgramId := ⟨d.lastNumber + 1⟩
    (.ok program, { d with lastNumber := d.lastNumber + 1 }.note (.compiled program name))

/-- Upload an image. -/
def createTexture (d : Recording) (image : Image) : TextureId × Recording :=
  let texture : TextureId := ⟨d.lastNumber + 1⟩
  (texture, { d with lastNumber := d.lastNumber + 1 }.note (.uploaded texture image))

instance : Device Recording :=
  ⟨compile, createTexture, fun d command => d.note (.performed command)⟩

end Recording

end MaterialViewer
