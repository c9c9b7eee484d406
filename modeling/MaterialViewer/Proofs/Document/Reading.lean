import MaterialViewer.Document.Reading
import MaterialViewer.Proofs.Files.Writing

/-!
# Proofs: reading documents

What reading a file comes to if the file is not there, and if it holds the text of a document that
asks for no other files.
-/

namespace MaterialViewer

theorem Markup.events_ofList {cs : List Char} (h : cs.head? ≠ some '\uFEFF') :
    Markup.events (String.ofList cs) = Markup.eventsFrom [] cs := by
  unfold Markup.events
  rw [String.toList_ofList]
  split
  · exact absurd rfl h
  · rfl

namespace Document

variable {files : FileTree} {path : Path}

theorem ofFile_unreadable (h : files.readText? path = none) (options : ReadOptions) :
    ofFile files options path = .error (.unreadable path) := by
  unfold ofFile nestingBound readNested
  rw [h]

/-- A document that asks for no other files is the tree that its text stands for. -/
theorem ofFile_ok {text : String} {root : Element} (hread : files.readText? path = some text)
    (hroot : Element.ofEvents (Markup.events text) = .ok (root, [])) (options : ReadOptions) :
    ofFile files options path = .ok { root, source? := some path } := by
  unfold ofFile nestingBound readNested
  rw [hread]
  dsimp only
  unfold parseText
  rw [hroot]
  unfold importIncludes
  dsimp only
  split <;> rfl

end Document

end MaterialViewer
