import MaterialViewer.Files.Tree
import MaterialViewer.Image.Bmp
import MaterialViewer.Image.Png
import MaterialViewer.Image.Radiance
import MaterialViewer.Image.Tga

/-!
# Image files

The format of an image file is told by the extension of its name. Four of the formats that are
recognised have no decoder here: their files count as broken.
-/

namespace MaterialViewer

/-- A format of image files. -/
inductive ImageFormat
  | png | jpeg | gif | bmp | ico | tga | radiance | exr
deriving DecidableEq

namespace ImageFormat

/-- The extensions of a format. -/
def extensions : ImageFormat → List String
  | png => ["png", "apng"]
  | jpeg => ["jpg", "jpeg", "jfif"]
  | gif => ["gif"]
  | bmp => ["bmp"]
  | ico => ["ico"]
  | tga => ["tga"]
  | radiance => ["hdr"]
  | exr => ["exr"]

/-- All formats. -/
def all : List ImageFormat := [png, jpeg, gif, bmp, ico, tga, radiance, exr]

/-- The format of files with an extension, which may be in capitals. -/
def ofExtension? (extension : String) : Option ImageFormat :=
  all.find? fun format => format.extensions.contains extension.toLower

/-- The image in the bytes of a file of a format; `path` names the file in messages. -/
def decode (format : ImageFormat) (path : String) (bytes : List UInt8) : Except ImageError Image :=
  match format with
  | png => Png.decode path bytes
  | bmp => Bmp.decode bytes
  | tga => Tga.decode bytes
  | radiance => Radiance.decode bytes
  | jpeg | gif | ico | exr => .error (.undecodable "no decoder")

end ImageFormat

/-- The image in a file. A name that tells no format is unsupported, unless nothing has that
name. -/
def Image.ofFile (files : FileTree) (path : Path) : Except ImageError Image :=
  if files.exists? path then
    match path.extension?.bind ImageFormat.ofExtension? with
    | none => .error (.unsupported "the image format could not be determined")
    | some format =>
      match files.readBytes? path with
      | some bytes => format.decode path.text bytes.toList
      | none => .error (.undecodable "not a file")
  else .error (.undecodable "no such file")

end MaterialViewer
