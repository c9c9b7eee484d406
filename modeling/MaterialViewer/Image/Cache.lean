import MaterialViewer.Device.Basic
import MaterialViewer.Image.File
import MaterialViewer.Ordered

/-!
# Image cache

Images are read and uploaded once for each file, however its path is written, until the entry of
the file is dropped. That a file could not be read is remembered in the same way. Solid colors are
uploaded once for each color.
-/

namespace MaterialViewer

/-- An uploaded image. -/
structure ImageDescriptor where
  /-- The texture on the device. -/
  texture : TextureId
  /-- The number of pixels in a row. -/
  width : Nat
  /-- The number of rows. -/
  height : Nat
  /-- The number of samples of a pixel. -/
  channels : Nat
  /-- The number of levels of the mip chain. -/
  mipCount : Nat
  /-- Whether the samples are floating-point numbers. -/
  isFloat : Bool
deriving DecidableEq

/-- The descriptor of an image that was uploaded as a texture. -/
def ImageDescriptor.ofImage (image : Image) (texture : TextureId) : ImageDescriptor :=
  ⟨texture, image.width, image.height, image.channels, image.mipCount, image.isFloat⟩

/-- A reader of image files. -/
structure ImageLoader where
  /-- The extensions of the files that it reads, in small letters. -/
  extensions : List String
  /-- Read a file. -/
  load : FileTree → Path → Except ImageError Image

/-- The reader of the formats with a decoder or a known extension. -/
def ImageLoader.standard : ImageLoader where
  extensions := ["png", "jpg", "jpeg", "gif", "bmp", "ico", "tga", "hdr", "exr"]
  load := Image.ofFile

/-- The uploaded images, and the files that could not be read. -/
structure ImageCache where
  /-- The readers, the first one for an extension is used. -/
  loaders : List ImageLoader := [.standard]
  /-- What became of each file, by its absolute path without dots. -/
  entries : List (Path × Except ImageError ImageDescriptor) := []
  /-- The uploaded solid colors. -/
  solids : List (Color × ImageDescriptor) := []

namespace ImageCache

/-- The path under which a file is kept: absolute and without dots. -/
def key (files : FileTree) (path : Path) : Path :=
  (files.canonical? path).getD (path.normalize files.workingDirectory)

/-- Read a file with the first loader for its extension. -/
def load (c : ImageCache) (files : FileTree) (path : Path) : Except ImageError Image :=
  if files.isFile path then
    let extension := (path.extension?.getD "").toLower
    match c.loaders.find? (·.extensions.contains extension) with
    | some loader => loader.load files path
    | none => .error (.unsupported path.text)
  else .error (.notFound path.text)

/-- Whether there is an entry for a file. -/
def contains (c : ImageCache) (files : FileTree) (path : Path) : Bool :=
  (Ordered.get? (key files path) c.entries).isSome

/-- All textures that the cache owns. -/
def textures (c : ImageCache) : List TextureId :=
  c.entries.filterMap (fun (_, entry) => entry.toOption.map (·.texture)) ++
    c.solids.map fun (_, descriptor) => descriptor.texture

variable {δ : Type} [Device δ]

/-- The image in a file, which is read and uploaded if there is no entry for it. -/
def acquire (c : ImageCache) (files : FileTree) (path : Path) (device : δ) :
    Except ImageError ImageDescriptor × ImageCache × δ :=
  let key := key files path
  match Ordered.get? key c.entries with
  | some entry => (entry, c, device)
  | none =>
    let (entry, device) : Except ImageError ImageDescriptor × δ :=
      match c.load files key with
      | .ok image =>
        let (texture, device) := Device.createTexture device image
        (.ok (.ofImage image texture), device)
      | .error e => (.error e, device)
    (entry, { c with entries := Ordered.put key entry c.entries }, device)

/-- The texture of a solid color. -/
def solidColor (c : ImageCache) (color : Color) (device : δ) : ImageDescriptor × ImageCache × δ :=
  match Ordered.get? color c.solids with
  | some descriptor => (descriptor, c, device)
  | none =>
    let image := Image.solid color
    let (texture, device) := Device.createTexture device image
    let descriptor := ImageDescriptor.ofImage image texture
    (descriptor, { c with solids := Ordered.put color descriptor c.solids }, device)

/-- Release a texture. -/
def release (device : δ) (texture : TextureId) : δ :=
  Device.perform device (.releaseTexture texture)

/-- Drop the entry of a file, so that it is read again. -/
def invalidate (c : ImageCache) (files : FileTree) (path : Path) (device : δ) : ImageCache × δ :=
  let key := key files path
  ({ c with entries := Ordered.erase key c.entries },
    match Ordered.get? key c.entries with
    | some (.ok descriptor) => release device descriptor.texture
    | _ => device)

/-- Drop all entries and all solid colors. -/
def clear (c : ImageCache) (device : δ) : ImageCache × δ :=
  ({ c with entries := [], solids := [] }, c.textures.foldl release device)

end ImageCache

end MaterialViewer
