import MaterialViewer.Shader.Lights

/-!
# Lights of a document

The rig of a document holds its lights: the nodes of type `lightshader` outside of node definitions,
in the order of the document, with the values of their inputs. The kinds of lights are numbered from
one, in the order in which they first occur.
-/

namespace MaterialViewer

/-- A light of a document. -/
structure Light where
  /-- The path of the node. -/
  path : String
  /-- The name of its node definition. -/
  nodeDef : String
  /-- The number of its kind. -/
  kind : Nat
  /-- The values of its inputs, from the node or from the definition. -/
  inputs : List (String × Value)
deriving DecidableEq

/-- The lights of a document, with the numbers of their kinds. -/
structure LightRig where
  /-- The lights in the order of the document. -/
  lights : List Light := []
  /-- The kinds of lights. -/
  kinds : LightKinds := {}
deriving DecidableEq, Inhabited

namespace LightRig

/-- Whether an element is a light. -/
def isLight (e : Element) : Bool := e.typeName = ClosureType.lightShader.name

mutual

/-- The lights at or below an element with the given path, with their paths. Node definitions hold
no lights, and there are none below a light. -/
def lightsAt (path : String) : Element → List (String × Element)
  | e@⟨category, _, _, children, _⟩ =>
    if category = "nodedef" then []
    else if isLight e then [(path, e)]
    else lightsBelow path children

/-- The lights at or below the elements inside the element with the given path. -/
def lightsBelow (path : String) : List Element → List (String × Element)
  | [] => []
  | e :: es => lightsAt (Element.joinPath path e.name) e ++ lightsBelow path es

end

/-- The values of the inputs of a light; an input whose text is not a value is left out. -/
def inputValues (node nodeDef : Element) : List (String × Value) :=
  nodeDef.valueElements.filterMap fun input =>
    let text? := ((node.valueElement? input.name).bind (·.valueText?)).or input.valueText?
    (text?.bind (Value.parse? (.ofName input.typeName))).map fun value => (input.name, value)

/-- Add a light to the rig, and number its kind if it is new. A light without node definition is
left out. -/
def addLight (d : Document) (rig : LightRig) (found : String × Element) : LightRig :=
  match d.nodeDefOfNode? found.2 with
  | none => rig
  | some nodeDef =>
    let kind := (rig.kinds.number? nodeDef.name).getD (rig.kinds.entries.length + 1)
    { lights := rig.lights ++
        [{ path := found.1, nodeDef := nodeDef.name, kind
           inputs := inputValues found.2 nodeDef }]
      kinds := rig.kinds.bind nodeDef.name kind }

/-- The lights of a document. -/
def ofDocument (d : Document) : LightRig :=
  (lightsBelow "" d.elements).foldl (addLight d) {}

end LightRig

/-- The maps and the switches of environment lighting. -/
structure EnvironmentLighting where
  /-- The name of the file with the map of radiance. -/
  radiance : String := "resources/Images/san_giuseppe_bridge.hdr"
  /-- The name of the file with the map of irradiance. -/
  irradiance : String := "resources/Images/san_giuseppe_bridge_diffuse.hdr"
  /-- The number of samples. -/
  samples : Nat := 16
  /-- Whether the lights of the document are used. -/
  direct : Bool := true
  /-- Whether the maps are used; they are black otherwise. -/
  indirect : Bool := true
deriving DecidableEq, Inhabited

namespace EnvironmentLighting

/-- The least number of samples. -/
def minSamples : Nat := 4

/-- The greatest number of samples. -/
def maxSamples : Nat := 1024

/-- A number of samples, moved into the range. -/
def clampSamples (n : Nat) : Nat := max minSamples (min n maxSamples)

end EnvironmentLighting

end MaterialViewer
