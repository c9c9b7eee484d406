import MaterialViewer.Number.Single

/-!
# Images

A decoded image: its size, the number of channels of a pixel, and the samples of all pixels, row by
row from the top. Samples are bytes or single-precision numbers.
-/

namespace MaterialViewer

/-- The samples of an image, pixel by pixel and row by row from the top. -/
inductive Samples
  | bytes (values : List UInt8)
  | floats (values : List Single)
deriving DecidableEq

/-- A decoded image. -/
structure Image where
  /-- The number of pixels in a row. -/
  width : Nat
  /-- The number of rows. -/
  height : Nat
  /-- The number of samples of a pixel. -/
  channels : Nat
  /-- All samples. -/
  samples : Samples
deriving DecidableEq

/-- Why an image cannot be used. -/
inductive ImageError
  /-- There is no such file. -/
  | notFound (path : String)
  /-- No loader reads the format, or the samples are of a kind that is not used. -/
  | unsupported (what : String)
  /-- The file is not a well-formed image. -/
  | undecodable (reason : String)
deriving DecidableEq

/-- The text of an error. -/
def ImageError.message : ImageError → String
  | .notFound path => s!"File not found: {path}"
  | .unsupported what => s!"Unsupported format: {what}"
  | .undecodable reason => s!"Failed to decode image: {reason}"

/-- A color with red, green, blue and alpha. -/
structure Color where
  red : Single
  green : Single
  blue : Single
  alpha : Single
deriving DecidableEq, Hashable

/-- The components of a color. -/
def Color.components (c : Color) : List Single := [c.red, c.green, c.blue, c.alpha]

/-- Black without transparency. -/
def Color.opaqueBlack : Color := ⟨.zero, .zero, .zero, .one⟩

namespace Image

/-- The most bytes that the samples of an image in a file may take. -/
def maxBytes : Nat := Nat.pow 2 29

/-- The image of a single pixel. -/
def solid (c : Color) : Image := ⟨1, 1, 4, .floats c.components⟩

/-- Whether the samples are floating-point numbers. -/
def isFloat (i : Image) : Bool :=
  match i.samples with
  | .floats _ => true
  | .bytes _ => false

/-- The number of samples. -/
def sampleCount (i : Image) : Nat :=
  match i.samples with
  | .floats values => values.length
  | .bytes values => values.length

/-- The number of levels of a full mip chain: each level halves the larger side until one pixel is
left. -/
def mipCount (i : Image) : Nat := Nat.log2 (max i.width i.height) + 1

end Image

end MaterialViewer
