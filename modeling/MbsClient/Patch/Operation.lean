import MbsClient.Codec.Source
import MbsClient.Json.Printer
import MbsClient.Patch.Pointer

/-!
# Operations — single steps of a JSON patch

An `Edit` names its target by the segments of the path, an `Operation` by the pointer text that is
sent. `Json.edit?` says what a step does to a document (RFC 6902).
-/

namespace MbsClient

namespace Patch

inductive Kind where
  | add
  | replace
  | remove
deriving DecidableEq, Repr

namespace Kind

def text : Kind → String
  | .add => "add"
  | .replace => "replace"
  | .remove => "remove"

def words : List (String × Kind) := [("add", .add), ("replace", .replace), ("remove", .remove)]

instance : Decode Kind := ⟨decodeWord words⟩

def encode (k : Kind) : Json := .string k.text

end Kind

/-- A step on the value at the end of a path. -/
structure Edit where
  kind : Kind
  path : List String
  value : Option Json

namespace Edit

def add (path : List String) (value : Json) : Edit := ⟨.add, path, some value⟩

def replace (path : List String) (value : Json) : Edit := ⟨.replace, path, some value⟩

def remove (path : List String) : Edit := ⟨.remove, path, none⟩

/-- The same step on a document that lies at `path` of a larger one. -/
def relocate (path : List String) (e : Edit) : Edit := { e with path := path ++ e.path }

end Edit

/-- The steps on a document that is the member, entry or item `segment` of a larger one. -/
def under (segment : String) (edits : List Edit) : List Edit := edits.map (Edit.relocate [segment])

/-- A step with its target as pointer text. -/
structure Operation where
  kind : Kind
  path : String
  value : Option Json

namespace Operation

def ofEdit (e : Edit) : Operation := ⟨e.kind, Pointer.text e.path, e.value⟩

/-- Whether the step is on the whole resource. -/
def isRoot (op : Operation) : Bool := op.path = "/"

def encode (op : Operation) : Json :=
  .record [("op", some op.kind.encode), ("path", some (.string op.path)), ("value", op.value)]

/-- A `null` value is no value. Written as a list, a step has all three. -/
def decode (d : Json) : Decoded Operation := do
  let fields ← Fields.read ["op", "path", "value"] d
  let kind ← fields.member? "op"
  let path ← fields.member? "path"
  let value := (fields.given.find? fun m => m.1 = "value").map Prod.snd
  if fields.listed && value.isNone then .error .shape
  return ⟨← needed kind, ← needed path, value.filter fun v => !v.isNull⟩

/-- The step as a line of text: kind, path and value. -/
def text (op : Operation) : String :=
  match op.value with
  | some v => op.kind.text ++ " " ++ op.path ++ " " ++ v.compact
  | none => op.kind.text ++ " " ++ op.path

instance : BEq Operation where
  beq a b := a.kind == b.kind && a.path == b.path && a.value == b.value

end Operation

/-- The document of a patch. -/
def encode (ops : List Operation) : Json := .array (ops.map Operation.encode)

end Patch

/-! ## What a step does -/

namespace Json

open Patch

/-- The index that a segment names. -/
def index? (segment : String) : Option Nat := Text.Decimal.plain? segment.toList

/-- A step on a member of an object: only `add` makes a new member. -/
def editMember? (kind : Kind) (value : Option Json) (segment : String)
    (members : List (String × Json)) : Option (List (String × Json)) :=
  match kind, Entries.get? segment members, value with
  | .add, _, some v => some (Entries.insert segment v members)
  | .replace, some _, some v => some (Entries.insert segment v members)
  | .remove, some _, _ => some (Entries.erase segment members)
  | _, _, _ => none

/-- A step on an item of an array: `add` puts the value in front of the item, or behind all. -/
def editItem? (kind : Kind) (value : Option Json) (segment : String) (items : List Json) :
    Option (List Json) :=
  match kind, value with
  | .add, some v =>
      if segment = behindLast then some (items ++ [v])
      else do
        let i ← index? segment
        if i ≤ items.length then some (items.insertIdx i v) else none
  | .replace, some v => do
      let i ← index? segment
      if i < items.length then some (items.set i v) else none
  | .remove, _ => do
      let i ← index? segment
      if i < items.length then some (items.eraseIdx i) else none
  | _, _ => none

/-- The document after a step; the target of `replace` and `remove` has to exist, and so has
everything on the way to the target. -/
def edit? (kind : Kind) (value : Option Json) : (path : List String) → Json → Option Json
  | [], _ => if kind = .remove then none else value
  | [segment], .object members => (editMember? kind value segment members).map .object
  | [segment], .array items => (editItem? kind value segment items).map .array
  | segment :: path, .object members => do
      let inner ← edit? kind value path (← Entries.get? segment members)
      return .object (Entries.insert segment inner members)
  | segment :: path, .array items => do
      let i ← index? segment
      let inner ← edit? kind value path (← items[i]?)
      return .array (items.set i inner)
  | _, _ => none

/-- The document after the steps of a patch, each of which has to succeed. -/
def patch? (ops : List Operation) (doc : Json) : Option Json :=
  ops.foldlM (fun doc op => do edit? op.kind op.value (← Pointer.parse? op.path) doc) doc

end Json

end MbsClient
