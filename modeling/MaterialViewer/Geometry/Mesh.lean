import MaterialViewer.Shader.Geometry

/-!
# Meshes

A mesh has streams of vertex attributes, each under the name of the attribute, and partitions of
triangles, each drawn by itself.
-/

namespace MaterialViewer

/-- The values of one attribute for all vertices. -/
structure MeshStream where
  /-- The name of the attribute. -/
  name : String
  /-- The number of floats of each vertex. -/
  components : Nat
  /-- The floats of all vertices. -/
  data : List Single
deriving DecidableEq

/-- Triangles of a mesh. -/
structure MeshPartition where
  /-- The name of the partition. -/
  name : String
  /-- The vertices of the triangles, three for each. -/
  indices : List Nat
deriving DecidableEq

/-- A mesh. -/
structure Mesh where
  /-- The name of the mesh. -/
  name : String
  /-- The streams, of different names. -/
  streams : List MeshStream := []
  /-- The partitions. -/
  partitions : List MeshPartition := []
deriving DecidableEq, Inhabited

/-- The number of vertices of a stream. -/
def MeshStream.vertexCount (s : MeshStream) : Nat := s.data.length / s.components

/-- The number of triangles of a partition. -/
def MeshPartition.faceCount (p : MeshPartition) : Nat := p.indices.length / 3

namespace Mesh

/-- The stream with a name. -/
def stream? (m : Mesh) (name : String) : Option MeshStream := m.streams.find? (·.name = name)

/-- Add a stream, in place of one with its name. -/
def addStream (m : Mesh) (s : MeshStream) : Mesh :=
  if (m.stream? s.name).isSome then
    { m with streams := m.streams.map fun t => if t.name = s.name then s else t }
  else { m with streams := m.streams ++ [s] }

/-- Add a partition. -/
def addPartition (m : Mesh) (p : MeshPartition) : Mesh :=
  { m with partitions := m.partitions ++ [p] }

/-- The number of vertices, which is that of the positions. -/
def vertexCount (m : Mesh) : Nat :=
  ((m.stream? VertexAttribute.position).map (·.vertexCount)).getD 0

/-- One half. -/
def half : Single := ⟨0x3F000000⟩

/-- The texture coordinates of the four corners of a face. -/
def cornerTexcoords : List Single := [.zero, .zero, .one, .zero, .one, .one, .zero, .one]

/-- The two triangles of the face whose four corners begin at a vertex. -/
def faceIndices (base : Nat) : List Nat :=
  [base, base + 1, base + 2, base + 2, base + 3, base]

/-- A mesh of faces with four corners. -/
def ofFaces (name : String) (count : Nat) (positions normals tangents : List Single) : Mesh :=
  { name
    streams :=
      [⟨VertexAttribute.position, 3, positions⟩, ⟨VertexAttribute.normal, 3, normals⟩,
        ⟨VertexAttribute.tangent, 3, tangents⟩,
        ⟨VertexAttribute.texcoordStem ++ "0", 2,
          (List.replicate count cornerTexcoords).flatten⟩]
    partitions := [⟨name, (List.range count).flatMap fun face => faceIndices (4 * face)⟩] }

/-- A list repeated for each of four corners. -/
def atCorners (xs : List Single) : List Single := (List.replicate 4 xs).flatten

/-- A square of a size around the origin, in the plane of the first and third axes. -/
def plane (size : Single) : Mesh :=
  let r := Single.ofMachine (size.toMachine * half.toMachine)
  let l := r.neg
  let o := Single.zero
  ofFaces "plane" 1 [l, o, l, r, o, l, r, o, r, l, o, r] (atCorners [o, .one, o])
    (atCorners [.one, o, o])

/-- A number of which only the sign matters, scaled by a length. -/
def signed (length : Single) (sign : Int) : Single :=
  if sign = 0 then .zero else if sign < 0 then length.neg else length

/-- The faces of a cube: the normal, the tangent, and the four corners. -/
def cubeFaces : List (List Int × List Int × List (List Int)) :=
  [([0, 0, 1], [1, 0, 0], [[-1, -1, 1], [1, -1, 1], [1, 1, 1], [-1, 1, 1]]),
    ([0, 0, -1], [-1, 0, 0], [[1, -1, -1], [-1, -1, -1], [-1, 1, -1], [1, 1, -1]]),
    ([0, 1, 0], [1, 0, 0], [[-1, 1, 1], [1, 1, 1], [1, 1, -1], [-1, 1, -1]]),
    ([0, -1, 0], [1, 0, 0], [[-1, -1, -1], [1, -1, -1], [1, -1, 1], [-1, -1, 1]]),
    ([1, 0, 0], [0, 0, -1], [[1, -1, 1], [1, -1, -1], [1, 1, -1], [1, 1, 1]]),
    ([-1, 0, 0], [0, 0, 1], [[-1, -1, -1], [-1, -1, 1], [-1, 1, 1], [-1, 1, -1]])]

/-- A cube of unit size around the origin, in which each face has vertices of its own. -/
def cube : Mesh :=
  ofFaces "cube" 6
    (cubeFaces.flatMap fun (_, _, corners) => corners.flatten.map (signed half))
    (cubeFaces.flatMap fun (normal, _, _) => atCorners (normal.map (signed .one)))
    (cubeFaces.flatMap fun (_, tangent, _) => atCorners (tangent.map (signed .one)))

end Mesh

end MaterialViewer
