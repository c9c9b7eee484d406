import MaterialViewer.Rendering.Material
import MaterialViewer.Settings.CommandLine

/-!
# Sessions

A session is a running viewer: its settings, the standard library, the renderer, and the scene that
is shown. A scene is a loaded document with a material for each of its subsets, one of which is
selected. A new scene is prepared aside and takes the place of the old one only when its selected
material has a shader, so that a broken edit never replaces a working material.
-/

namespace MaterialViewer

/-- A loaded document with its materials. -/
structure Scene where
  /-- The file of the document. -/
  path : Path
  /-- The document. -/
  loaded : LoadedDocument
  /-- The materials, one for each subset of the document. -/
  materials : List Material
  /-- The lights of the document. -/
  lights : LightRig
  /-- The shader generator, which knows the kinds of these lights. -/
  generator : ShaderGenerator
  /-- The position of the selected material. -/
  selection : Nat

/-- A change of a file. -/
inductive FileEvent
  | created (path : Path)
  | modified (path : Path)
  | deleted (path : Path)
  /-- Changes could not be watched. -/
  | failed (reason : String)
deriving DecidableEq

/-- Why a step of a session fails. -/
inductive SessionError
  /-- The command line is refused. -/
  | commandLine (e : CommandLineError)
  /-- The settings cannot be used. -/
  | settings (e : SettingsError)
  /-- A document cannot be read. -/
  | document (e : DocumentError)
  /-- A material cannot be used. -/
  | material (e : MaterialError)
  /-- A source cannot be written. -/
  | unwritable (path : Path)
  /-- There is no document. -/
  | noMaterial
  /-- The document has nothing to draw. -/
  | noSelection
  /-- There is no directory to write to. -/
  | noSearchPath

/-- The text of an error. -/
def SessionError.message : SessionError → String
  | commandLine e => e.message
  | settings e => e.message
  | document e => e.message
  | material e => e.message
  | unwritable path => s!"Failed to write {path.text}: no such directory"
  | noMaterial => "No material document given"
  | noSelection => "Document has no renderable elements"
  | noSearchPath => "Search path is empty"

/-- A running viewer. -/
structure Session (δ : Type) where
  /-- The settings. -/
  settings : Settings
  /-- The options of the shader generator, which looks up sources on the search path as well. -/
  options : GeneratorOptions
  /-- The standard library. -/
  library : Document
  /-- The mesh on which materials are shown. -/
  mesh : Mesh := .cube
  /-- The renderer. -/
  renderer : Renderer δ
  /-- The scene that is shown. -/
  scene? : Option Scene := none

namespace Scene

/-- The selected material. -/
def selected? (s : Scene) : Option Material := s.materials[s.selection]?

/-- The scene with another material at a position. -/
def put (s : Scene) (index : Nat) (m : Material) : Scene :=
  { s with materials := s.materials.set index m }

/-- The programs that materials of the scene hold. -/
def programs (s : Scene) : List ProgramId :=
  s.materials.filterMap fun m => m.program?.map (·.id)

end Scene

namespace Session

variable {δ : Type}

/-- A session without scene. -/
def start (settings : Settings) (device : δ) (files : FileTree) :
    Except SessionError (Session δ) :=
  match Document.loadLibraries files settings.searchPath settings.libraryFolders with
  | .error e => .error (.document e)
  | .ok library =>
    let options := settings.generator
    .ok {
      settings
      options := { options with sourcePath := options.sourcePath.extend settings.searchPath }
      library
      renderer := { device } }

/-- What there is to draw. -/
def subsets (s : Session δ) : List MaterialSubset :=
  (s.scene?.map (·.loaded.subsets)).getD []

/-- The selected material. -/
def selected? (s : Session δ) : Option Material := s.scene?.bind Scene.selected?

variable [Device δ]

/-- Make the program of a material current, with its images and the mesh. -/
def activate (s : Session δ) (files : FileTree) (m : Material) (r : Renderer δ) :
    Except MaterialError (Material × Renderer δ) := do
  let (m, r) ← m.bind r
  let (_, m, r) ← m.bindImages files s.settings.searchPath s.settings.fallback? r
  let (_, r) ← m.bindMesh s.mesh r
  return (m, r)

/-- Read a document, and give the material at a position its shader; the first material, if there is
none at the position. -/
def prepare (s : Session δ) (files : FileTree) (path : Path) (position : Nat) :
    Except SessionError Scene × Renderer δ :=
  match Document.ofFile files { searchPath := s.settings.searchPath } path with
  | .error e => (.error (.document e), s.renderer)
  | .ok d =>
    let loaded := d.merge s.library s.settings.modifiers (some s.settings.generator.target)
    let lights := LightRig.ofDocument loaded.document
    let generator : ShaderGenerator := { lights := lights.kinds }
    let materials := loaded.subsets.map Material.ofSubset
    let selection := if position < materials.length then position else 0
    match materials[selection]? with
    | none => (.error .noSelection, s.renderer)
    | some m =>
      match m.generate generator loaded.document files s.options s.renderer with
      | (.error e, r) => (.error (.material e), r)
      | (.ok m, r) =>
        (.ok { path, loaded, materials := materials.set selection m, lights, generator, selection },
          r)

/-- Show a scene, with the renderer as it is after the scene was prepared. -/
def install (s : Session δ) (files : FileTree) (scene : Scene) (r : Renderer δ) :
    Except SessionError Unit × Session δ :=
  match scene.selected? with
  | none => (.error .noSelection, { s with renderer := r })
  | some m =>
    match s.activate files m r with
    | .error e => (.error (.material e), { s with renderer := r })
    | .ok (m, r) =>
      (.ok (), { s with renderer := r, scene? := some (scene.put scene.selection m) })

/-- Read a document and show its first subset. -/
def load (s : Session δ) (files : FileTree) (path : Path) : Except SessionError Unit × Session δ :=
  match s.prepare files path 0 with
  | (.error e, r) => (.error e, { s with renderer := r })
  | (.ok scene, r) => s.install files scene r

/-- Read the document again. Images that the materials used so far are read again as well, and
programs that no material holds any more are released. -/
def reload (s : Session δ) (files : FileTree) : Except SessionError Unit × Session δ :=
  match s.scene? with
  | none => (.error .noMaterial, s)
  | some old =>
    match s.prepare files old.path old.selection with
    | (.error e, r) => (.error e, { s with renderer := r })
    | (.ok scene, r) =>
      let r := (old.materials.flatMap Material.imageFiles).foldl (·.invalidate files ·) r
      match s.install files scene r with
      | (.error e, s) => (.error e, s)
      | (.ok _, s) => (.ok (), { s with renderer := s.renderer.purgePrograms scene.programs })

/-- Show the subset at a position, counted around. A subset whose shader cannot be generated leaves
the selection as it is. -/
def select (s : Session δ) (files : FileTree) (position : Nat) :
    Except SessionError Unit × Session δ :=
  match s.scene? with
  | none => (.error .noSelection, s)
  | some scene =>
    let index := position % scene.materials.length
    match scene.materials[index]? with
    | none => (.error .noSelection, s)
    | some m =>
      let (result, r) : Except MaterialError Material × Renderer δ :=
        if m.shader?.isSome then (.ok m, s.renderer)
        else m.generate scene.generator scene.loaded.document files s.options s.renderer
      match result with
      | .error e => (.error (.material e), { s with renderer := r })
      | .ok m =>
        match s.activate files m r with
        | .error e =>
          (.error (.material e), { s with renderer := r, scene? := some (scene.put index m) })
        | .ok (m, r) =>
          (.ok (), { s with
            renderer := r
            scene? := some { scene.put index m with selection := index } })

/-- Show the next subset. -/
def selectNext (s : Session δ) (files : FileTree) : Except SessionError Unit × Session δ :=
  match s.scene? with
  | none => (.error .noSelection, s)
  | some scene => s.select files (scene.selection + 1)

/-- Show the subset before. -/
def selectPrevious (s : Session δ) (files : FileTree) : Except SessionError Unit × Session δ :=
  match s.scene? with
  | none => (.error .noSelection, s)
  | some scene => s.select files (scene.selection + scene.materials.length - 1)

/-- Draw the mesh with a material. -/
def drawMaterial (s : Session δ) (files : FileTree) (scene : Scene) (m : Material)
    (r : Renderer δ) : Except MaterialError (Material × Renderer δ) := do
  let camera := s.settings.camera
  let search := s.settings.searchPath
  let (m, r) ← m.bind r
  let r ← m.bindView camera.world camera.view camera.projection r
  let (_, m, r) ← m.bindImages files search s.settings.fallback? r
  let (m, r) ← m.bindLights files search scene.lights s.settings.environment r
  let r ← s.mesh.partitions.foldlM (fun r p => m.drawPartition p r) r
  return (m, r)

/-- Draw a frame. Without a scene there is nothing to draw. -/
def draw (s : Session δ) (files : FileTree) : Except SessionError Unit × Session δ :=
  match s.scene? with
  | none => (.ok (), s)
  | some scene =>
    match scene.selected? with
    | none => (.error .noSelection, s)
    | some m =>
      match s.drawMaterial files scene m s.renderer with
      | .error e => (.error (.material e), s)
      | .ok (m, r) =>
        (.ok (), { s with renderer := r, scene? := some (scene.put scene.selection m) })

/-- React to a change of a file. Documents and sources are read again, unless they are gone; an
image is dropped, so that the next frame reads it again. -/
def handleEvent (s : Session δ) (files : FileTree) (event : FileEvent) :
    Except SessionError Unit × Session δ :=
  let onChange (path : Path) (isGone : Bool) : Except SessionError Unit × Session δ :=
    if [Document.fileExtension, "glsl"].contains (path.extension?.getD "") then
      if s.scene?.isSome && !isGone then s.reload files else (.ok (), s)
    else (.ok (), { s with renderer := s.renderer.invalidate files path })
  match event with
  | .created path | .modified path => onChange path false
  | .deleted path => onChange path true
  | .failed _ => (.ok (), s)

omit [Device δ] in
/-- Write the sources of the selected shader to the first directory of the search path, under the
name of the document up to its first dot. If one of them cannot be written, those before it stay. -/
def saveShaders (s : Session δ) (files : FileTree) : Except SessionError (Path × Path) × FileTree :=
  match s.scene? with
  | none => (.error .noMaterial, files)
  | some scene =>
    match scene.selected?.bind Material.shader?, s.settings.searchPath.directories with
    | none, _ => (.error .noSelection, files)
    | some _, [] => (.error .noSearchPath, files)
    | some shader, directory :: _ =>
      let stem := String.ofList (((scene.path.fileName?.getD "").toList).takeWhile (· ≠ '.'))
      let vertex := directory.join ⟨stem ++ "_vs.glsl"⟩
      let pixel := directory.join ⟨stem ++ "_ps.glsl"⟩
      match files.writeText? vertex shader.vertexSource with
      | none => (.error (.unwritable vertex), files)
      | some files =>
        match files.writeText? pixel shader.pixelSource with
        | none => (.error (.unwritable pixel), files)
        | some files => (.ok (vertex, pixel), files)

end Session

end MaterialViewer
