import MaterialViewer.Image.Cache
import MaterialViewer.Number.Integer
import MaterialViewer.Text.Split

/-!
# Placeholder images

A loader for trying out materials without real images: a file holds the width, the height, the
number of channels, and `f32` for floating-point samples. The samples are all zero. A text that
begins with `unsupported` and a space stands for an image of an unsupported format.
-/

namespace MaterialViewer.Placeholder

/-- The image that a text describes. -/
def image (text : String) : Except ImageError Image :=
  match Text.splitAtFirst? "unsupported ".toList text.toList with
  | some ([], what) => .error (.unsupported (String.ofList what))
  | _ =>
    match Text.words text.toList with
    | [width, height, channels, kind] =>
      match [width, height, channels].mapM (Number.readBelow? (Nat.pow 2 32)) with
      | some [w, h, c] =>
        let count := w * h * c
        .ok ⟨w, h, c, if kind = "f32".toList then .floats (List.replicate count .zero)
          else .bytes (List.replicate count 0)⟩
      | _ => .error (.undecodable "no size")
    | _ => .error (.undecodable "no description")

/-- The loader of placeholder images with the given extensions. -/
def loader (extensions : List String) : ImageLoader where
  extensions
  load files path :=
    match files.readText? path with
    | some text => image text
    | none => .error (.undecodable "no text")

end MaterialViewer.Placeholder
