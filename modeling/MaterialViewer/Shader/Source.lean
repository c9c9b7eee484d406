import MaterialViewer.Files.SearchPath
import MaterialViewer.Shader.CodeBuffer
import MaterialViewer.Shader.Statement

/-!
# Source files of implementations

Functions that implementations call may be defined in files. The text of a file is taken over into
the shader once, however many nodes and lights need it and however its name is written.
-/

namespace MaterialViewer

/-- The function definitions of a shader under construction. -/
structure SourceText where
  /-- The files taken over so far, by the path that stands for each. -/
  included : List Path := []
  /-- The definitions so far. -/
  code : CodeBuffer := {}
deriving Inhabited

namespace SourceText

/-- Take over a file that an implementation needs. -/
def includeFile (files : FileTree) (searchPath : SearchPath) (implementation file : String)
    (t : SourceText) : Except GenerationError SourceText :=
  match searchPath.findExisting? files ⟨file⟩ with
  | none => .error (.sourceNotFound implementation file)
  | some path =>
    let key := files.identity path
    if t.included.contains key then .ok t
    else
      match files.readText? path with
      | none => .error (.sourceUnreadable path)
      | some text =>
        .ok
          { included := key :: t.included
            code := ((t.code.line ("// Included from " ++ file)).block text).blank }

/-- Take over the file that a node needs, if any: a node with code of its own needs none. -/
def includeFor (files : FileTree) (searchPath : SearchPath) (t : SourceText) (n : ShaderNode) :
    Except GenerationError SourceText :=
  match n.code? with
  | some (.source name (some file) _ none) => t.includeFile files searchPath name file
  | _ => .ok t

end SourceText

end MaterialViewer
