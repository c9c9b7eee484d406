import MaterialViewer.Document.Implementation
import MaterialViewer.Files.Path

/-!
# Errors of shader generation
-/

namespace MaterialViewer

/-- What is wrong with the code of an implementation. -/
inductive SourceFault
  /-- A placeholder has no end. -/
  | unterminatedPlaceholder
  /-- A placeholder names no input. -/
  | unknownInput (name : String)
  /-- There is neither code nor a function to call. -/
  | nothingToCall
deriving DecidableEq

/-- Why no shader is generated. -/
inductive GenerationError
  /-- There is no element with the path. -/
  | noElement (path : String)
  /-- The element to draw has no implementation. -/
  | unresolvedRoot (path : String) (cause : ResolveError)
  /-- The nodes that are to be drawn depend on themselves. -/
  | cycle (path : String)
  /-- The source file of an implementation is not found. -/
  | sourceNotFound (implementation file : String)
  /-- The source file of an implementation cannot be read. -/
  | sourceUnreadable (path : Path)
  /-- The code of an implementation is faulty. -/
  | invalidSource (implementation : String) (fault : SourceFault)
  /-- The element, or the type of its output, cannot be drawn. -/
  | unsupportedElement (path : String)
  /-- Node graphs implement each other beyond any depth. -/
  | endlessNesting
deriving DecidableEq

/-- The text of a source fault. -/
def SourceFault.message : SourceFault → String
  | unterminatedPlaceholder => "unterminated placeholder"
  | unknownInput name => s!"unknown input '{name}'"
  | nothingToCall => "neither source code nor function given"

/-- The text of a generation error. -/
def GenerationError.message : GenerationError → String
  | noElement path => s!"Element '{path}' does not exist"
  | unresolvedRoot path cause => s!"Cannot resolve '{path}': {cause.message}"
  | cycle path => s!"Node graph contains a cycle through '{path}'"
  | sourceNotFound implementation file =>
    s!"Source file '{file}' for '{implementation}' not found"
  | sourceUnreadable path => s!"Failed to read source {path.text}: no readable text file"
  | invalidSource implementation fault =>
    s!"Invalid implementation '{implementation}': {fault.message}"
  | unsupportedElement path => s!"Unsupported element '{path}'"
  | endlessNesting => "Node graphs implement each other without end"

end MaterialViewer
