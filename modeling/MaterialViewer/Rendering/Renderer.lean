import MaterialViewer.Device.ProgramCache
import MaterialViewer.Image.Cache

/-!
# Renderers

A renderer is a device together with the caches of what was uploaded to it. All materials that are
drawn on the device share it.
-/

namespace MaterialViewer

/-- A device with the programs and images on it. -/
structure Renderer (δ : Type) where
  /-- The device. -/
  device : δ
  /-- The images on it. -/
  images : ImageCache := {}
  /-- The programs on it. -/
  programs : ProgramCache := {}

namespace Renderer

variable {δ : Type} [Device δ]

/-- Carry out a command on the device. -/
def perform (r : Renderer δ) (command : Command) : Renderer δ :=
  { r with device := Device.perform r.device command }

/-- The program for a pair of sources. -/
def program (r : Renderer δ) (name : String) (source : ProgramSource) :
    Except CompileError CompiledProgram × Renderer δ :=
  let (result, programs, device) := r.programs.acquire name source r.device
  (result, { r with programs, device })

/-- The image in a file. -/
def image (r : Renderer δ) (files : FileTree) (path : Path) :
    Except ImageError ImageDescriptor × Renderer δ :=
  let (result, images, device) := r.images.acquire files path r.device
  (result, { r with images, device })

/-- The texture of a solid color. -/
def solidColor (r : Renderer δ) (color : Color) : ImageDescriptor × Renderer δ :=
  let (descriptor, images, device) := r.images.solidColor color r.device
  (descriptor, { r with images, device })

/-- The image in a file if there is one that can be read, and otherwise a fallback color if one is
given. The flag says whether it is the image. -/
def imageOr (r : Renderer δ) (files : FileTree) (path? : Option Path) (fallback? : Option Color) :
    Option (ImageDescriptor × Bool) × Renderer δ :=
  let (loaded?, r) : Option ImageDescriptor × Renderer δ :=
    match path? with
    | some path => let (result, r) := r.image files path; (result.toOption, r)
    | none => (none, r)
  match loaded?, fallback? with
  | some descriptor, _ => (some (descriptor, true), r)
  | none, some color => let (descriptor, r) := r.solidColor color; (some (descriptor, false), r)
  | none, none => (none, r)

/-- Drop the image in a file, so that it is read again. -/
def invalidate (r : Renderer δ) (files : FileTree) (path : Path) : Renderer δ :=
  let (images, device) := r.images.invalidate files path r.device
  { r with images, device }

/-- Drop all images. -/
def clearImages (r : Renderer δ) : Renderer δ :=
  let (images, device) := r.images.clear r.device
  { r with images, device }

/-- Release the programs that nobody holds. -/
def purgePrograms (r : Renderer δ) (held : List ProgramId) : Renderer δ :=
  let (programs, device) := r.programs.purge held r.device
  { r with programs, device }

end Renderer

end MaterialViewer
