import MaterialViewer.Shader.Options

/-!
# Built-in node implementations

Nodes that read geometry are implemented by the generator itself: texture coordinates, and position,
normal and tangent of the surface. A registry says which node definitions have such an
implementation; it wins over implementations in documents.
-/

namespace MaterialViewer

/-- A property of the surface at the point to be shaded. -/
inductive SurfaceProperty
  | position
  | normal
  | tangent
deriving DecidableEq, Repr

/-- A node implementation that reads geometry. -/
inductive GeometryReader
  /-- A set of texture coordinates. -/
  | texcoord
  /-- A property of the surface. -/
  | surface (property : SurfaceProperty)
deriving DecidableEq, Repr

/-- What a registered implementation serves. -/
structure RegistryKey where
  /-- The name of the node definition. -/
  nodeDef : String
  /-- The shading language. -/
  language : String
  /-- The target; empty for all targets of the language. -/
  target : String
deriving DecidableEq, Repr

/-- Built-in implementations of node definitions, in the order of registration. -/
structure Registry where
  /-- The implementations by what they serve. -/
  entries : List (RegistryKey × GeometryReader) := []
deriving Inhabited

namespace Registry

/-- Register an implementation, in place of an earlier one that serves the same. -/
def register (r : Registry) (key : RegistryKey) (reader : GeometryReader) : Registry :=
  ⟨Ordered.put key reader r.entries⟩

/-- The implementation of a node definition for a target; one for just this target wins. -/
def find? (r : Registry) (nodeDef : String) (target : Target) : Option GeometryReader :=
  (Ordered.get? ⟨nodeDef, target.language, target.target⟩ r.entries).or
    (Ordered.get? ⟨nodeDef, target.language, ""⟩ r.entries)

/-- The node definitions that are implemented without further registration. -/
def builtin : Registry :=
  ⟨[(⟨"ND_texcoord_vector2", Glsl.languageName, ""⟩, .texcoord),
    (⟨"ND_texcoord_vector3", Glsl.languageName, ""⟩, .texcoord),
    (⟨"ND_position_vector3", Glsl.languageName, ""⟩, .surface .position),
    (⟨"ND_normal_vector3", Glsl.languageName, ""⟩, .surface .normal),
    (⟨"ND_tangent_vector3", Glsl.languageName, ""⟩, .surface .tangent)]⟩

end Registry

end MaterialViewer
