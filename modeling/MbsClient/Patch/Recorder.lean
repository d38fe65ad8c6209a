import MbsClient.Patch.Difference

/-!
# Recorders — patches under construction, with a cursor into the document

What is recorded is placed at the cursor; moving the cursor leaves what has been recorded alone.
-/

namespace MbsClient.Patch

structure Recorder where
  cursor : List String := []
  recorded : List Edit := []

namespace Recorder

/-- Adds edits that are relative to the cursor. -/
def note (r : Recorder) (edits : List Edit) : Recorder :=
  { r with recorded := r.recorded ++ edits.map (Edit.relocate r.cursor) }

/-- Moves the cursor one level down. -/
def enter (r : Recorder) (segment : String) : Recorder :=
  { r with cursor := r.cursor ++ [segment] }

/-- Moves the cursor one level up. -/
def leave (r : Recorder) : Recorder := { r with cursor := r.cursor.dropLast }

/-- Adds the edits between two values that lie at the cursor. -/
def compare {α : Type} [Diff α] (r : Recorder) (old new : α) : Recorder :=
  r.note (edits old new)

def pointer (r : Recorder) : String := Pointer.text r.cursor

def operations (r : Recorder) : List Operation := r.recorded.map Operation.ofEdit

end Recorder

end MbsClient.Patch
