import MaterialViewer.Shader.Generated
import MaterialViewer.Shader.Options
import MaterialViewer.Shader.Source

/-!
# Lights in shaders

The kinds of lights are node definitions with numbers. A shader with lighting holds an array of
light data: the number of the kind of each light, and the inputs of all kinds. A function of the
shader evaluates a light with the function that implements its kind.
-/

namespace MaterialViewer

/-- The kinds of lights with their numbers, in the order of their binding. -/
structure LightKinds where
  /-- The node definitions with their numbers. -/
  entries : List (String × Nat) := []
deriving DecidableEq, Inhabited

namespace LightKinds

/-- Give a number to a node definition, in place of an earlier one. -/
def bind (k : LightKinds) (nodeDef : String) (number : Nat) : LightKinds :=
  ⟨Ordered.put nodeDef number k.entries⟩

/-- The number of a node definition. -/
def number? (k : LightKinds) (nodeDef : String) : Option Nat := Ordered.get? nodeDef k.entries

/-- The kinds bound one after the other. -/
def ofList (entries : List (String × Nat)) : LightKinds :=
  entries.foldl (fun k (nodeDef, number) => k.bind nodeDef number) {}

/-! ## Light data -/

/-- The field that holds the number of the kind of a light. -/
def typeField : String := "type"

/-- Whether an input of a light can be a field of the data: shaders know its type, and it is neither
a texture nor a closure. -/
def isFieldType (type : ValueType) : Bool :=
  Glsl.isShaderType type && type ≠ .filename && !type.isClosure

/-- The field for an input of a light. -/
def field? (input : Element) : Option ShaderVariable :=
  let type := ValueType.ofName input.typeName
  if isFieldType type then some { name := Glsl.identifier input.name, type } else none

/-- The fields of the data of a light: the number of its kind, then the inputs of all kinds. -/
def fields (k : LightKinds) (d : Document) : VariableBlock :=
  let inputs := k.entries.flatMap fun (nodeDef, _) =>
    match d.nodeDef? nodeDef with
    | some definition => definition.valueElements
    | none => []
  (inputs.filterMap field?).foldl VariableBlock.add ⟨[{ name := typeField, type := .integer }]⟩

/-- The declarations of the data of lights. -/
def declarations (fields : VariableBlock) : String :=
  let field (v : ShaderVariable) : Option String :=
    v.declaration?.map fun declaration => "    " ++ declaration ++ ";\n"
  "struct LightData\n\x7b\n" ++ String.join (fields.entries.filterMap field) ++ "\x7d;\n\n" ++
    s!"uniform LightData {Uniforms.lightData}[MAX_LIGHT_SOURCES];\n"

/-! ## Evaluation -/

/-- The file and the function that implement a kind of light, with the name of the implementation;
none if it is implemented otherwise or not at all. -/
def evaluator? (d : Document) (target : Target) (nodeDef : String) :
    Option (String × String × String) :=
  match d.resolve nodeDef target with
  | .ok (.source name (some file) (some function) _) => some (name, file, function)
  | _ => none

/-- The kinds that can be evaluated: number, implementation, file and function. -/
def evaluators (k : LightKinds) (d : Document) (target : Target) :
    List (Nat × String × String × String) :=
  k.entries.filterMap fun (nodeDef, number) =>
    (evaluator? d target nodeDef).map fun found => (number, found)

/-- The branches of the dispatching function, one for each kind that can be evaluated. -/
def dispatchBranches (isFirst : Bool) (b : CodeBuffer) : List (Nat × String) → CodeBuffer
  | [] => b
  | (number, function) :: rest =>
    let test := s!"(light.type == {String.ofList (Number.natText number)})"
    let b := b.line ((if isFirst then "if " else "else if ") ++ test)
    let b := (b.openScope.line s!"{function}(light, position, result);").closeScope ""
    dispatchBranches false b rest

/-- The function that evaluates a light by its kind. -/
def dispatcher (branches : List (Nat × String)) (b : CodeBuffer) : CodeBuffer :=
  let b :=
    b.line "void sampleLightSource(LightData light, vec3 position, out lightshader result)"
  let b := b.openScope.lines ["result.intensity = vec3(0.0);", "result.direction = vec3(0.0);"]
  ((dispatchBranches true b branches).closeScope "").blank

/-- Take over the files that evaluate lights, and add the function that evaluates a light. -/
def evaluation (k : LightKinds) (d : Document) (files : FileTree) (options : GeneratorOptions)
    (t : SourceText) : Except GenerationError SourceText := do
  let evaluators := k.evaluators d options.target
  let t ← evaluators.foldlM
    (fun t (_, name, file, _) => t.includeFile files options.sourcePath name file) t
  let branches := evaluators.map fun (number, _, _, function) => (number, function)
  return { t with code := dispatcher branches t.code }

end LightKinds

end MaterialViewer
