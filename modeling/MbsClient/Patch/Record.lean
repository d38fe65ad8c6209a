import MbsClient.Patch.Difference

/-!
# Records — how a structure is written and compared, member by member

A `Member` ties together what has to agree about one member: its name, the document it shows, when
it is shown at all, and the edits between two records. A structure of the model is a list of
members in the order in which differences are reported; its document has them in order of name.
-/

namespace MbsClient

open Patch

/-- A member of the documents of `R`. -/
structure Member (R : Type) where
  name : String
  /-- What the document holds under the name, if it has the member. -/
  shown : R → Option Json
  /-- The edits on the document of the record. -/
  edits : (old new : R) → List Edit

namespace Member

variable {R α : Type} [Encode α]

/-- Always shown. -/
def always [Diff α] (name : String) (get : R → α) : Member R where
  name
  shown r := some (encode (get r))
  edits old new := under name (MbsClient.edits (get old) (get new))

/-- Shown if there is a value. -/
def optional [Diff α] (name : String) (get : R → Option α) : Member R where
  name
  shown r := (get r).map encode
  edits old new := under name (Diff.presence (get old) (get new))

/-- Shown as `true` if set. -/
def flag (name : String) (get : R → Bool) : Member R where
  name
  shown r := if get r then some (.bool true) else none
  edits old new :=
    match get old, get new with
    | false, true => [.add [name] (.bool true)]
    | true, false => [.remove [name]]
    | _, _ => []

/-- Shown if the list has items. -/
def sequence [BEq α] [Diff α] (name : String) (get : R → List α) : Member R where
  name
  shown r := if (get r).isEmpty then none else some (encode (get r))
  edits old new :=
    match get old, get new with
    | [], [] => []
    | [], as => [.add [name] (encode as)]
    | _, [] => [.remove [name]]
    | as, bs => under name (Diff.list 0 as bs)

/-- Compared like an optional member, but shown only where `visible` holds. -/
def hidden [Diff α] (name : String) (visible : R → Bool) (get : R → Option α) : Member R where
  name
  shown r := if visible r then (get r).map encode else none
  edits old new := under name (Diff.presence (get old) (get new))

/-- The members that a record shows. -/
def document (members : List (Member R)) (r : R) : List (String × Option Json) :=
  members.map fun m => (m.name, m.shown r)

/-- The edits of all members, in their order. -/
def differences (members : List (Member R)) (old new : R) : List Edit :=
  members.flatMap fun m => m.edits old new

end Member

/-- Structures that are written and compared member by member. -/
class Record (R : Type) where
  members : List (Member R)

instance (priority := low) {R : Type} [Record R] : Encode R :=
  ⟨fun r => .record (Member.document Record.members r)⟩

instance (priority := low) {R : Type} [Record R] : Diff R :=
  ⟨Member.differences Record.members⟩

end MbsClient
