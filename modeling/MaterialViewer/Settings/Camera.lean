import MaterialViewer.Geometry.Matrix

/-!
# Cameras

A camera looks from one point at another, and gives the transforms with which a model is drawn.
-/

namespace MaterialViewer

/-- A point in space. -/
structure Point where
  x : Single
  y : Single
  z : Single
deriving DecidableEq

namespace Point

/-- The coordinates. -/
def toList (p : Point) : List Single := [p.x, p.y, p.z]

/-- The point with the given coordinates. -/
def ofList? : List Single → Option Point
  | [x, y, z] => some ⟨x, y, z⟩
  | _ => none

/-- The vector from the origin to a point. -/
def toVector (p : Point) : Vector3 := ⟨p.x.toMachine, p.y.toMachine, p.z.toMachine⟩

/-- The origin. -/
def origin : Point := ⟨.zero, .zero, .zero⟩

end Point

/-- A camera, and how large it shows the model. -/
structure Camera where
  /-- The point that it looks from. -/
  eye : Point := ⟨.zero, .zero, .ofNat 5⟩
  /-- The point that it looks at. -/
  target : Point := .origin
  /-- The vertical angle of view in degrees. -/
  viewAngle : Single := .ofNat 45
  /-- The distance from which on things are shown. -/
  near : Single := .ofRatio false 5 100
  /-- The distance up to which things are shown. -/
  far : Single := .ofNat 100
  /-- The factor by which the model is scaled. -/
  zoom : Single := .one
  /-- The width of the picture in pixels. -/
  width : Nat := 1280
  /-- The height of the picture in pixels. -/
  height : Nat := 960
deriving DecidableEq

namespace Camera

/-- The transform from object to world space. -/
def world (c : Camera) : Matrix4 := .scaling c.zoom.toMachine

/-- The transform from world space to the space of the camera. -/
def view (c : Camera) : Matrix4 := .lookAt c.eye.toVector c.target.toVector .up

/-- The number of radians in a degree. -/
def radiansPerDegree : Float32 :=
  (Single.ofRatio false 31415926535897932 10000000000000000).toMachine / 180

/-- The transform from the space of the camera to the screen. An empty picture counts as one pixel
wide or high. -/
def projection (c : Camera) : Matrix4 :=
  let aspect := (Single.ofNat (max c.width 1)).toMachine / (Single.ofNat (max c.height 1)).toMachine
  .perspective (c.viewAngle.toMachine * radiansPerDegree) aspect c.near.toMachine c.far.toMachine

/-- All numbers of the camera. -/
def numbers (c : Camera) : List Single :=
  c.eye.toList ++ c.target.toList ++ [c.viewAngle, c.near, c.far, c.zoom]

end Camera

end MaterialViewer
