import MbsClient.Codec.Constant
import MbsClient.Patch.Operation

/-!
# Differences — the edits that turn one value's document into another's

`edits old new` lists the steps in the order they are to be taken, with paths relative to the
value. What does not change has no step. Lists are compared by position, maps by key.
-/

namespace MbsClient

open Number Patch

/-- Types whose values can be compared step by step. -/
class Diff (α : Type) where
  edits : α → α → List Edit

export Diff (edits)

namespace Diff

section
variable {α : Type} [Encode α]

/-- A value without parts is replaced as a whole. -/
def scalar [BEq α] (old new : α) : List Edit :=
  if old == new then [] else [.replace [] (encode new)]

/-- A value that may be absent. -/
def presence [Diff α] : (old new : Option α) → List Edit
  | none, none => []
  | none, some new => [.add [] (encode new)]
  | some _, none => [.remove []]
  | some old, some new => edits old new

/-- The segment of the item at `i`. -/
def item (i : Nat) : String := Text.Decimal.text i

/-- Lists by position. While more old items are left than new ones, an old item that does not occur
among the new ones left is dropped; any other is paired with the first new one. `cursor` is where
the first old item left lies in the list as it is by then, so it stays where an item is dropped. At
the end new items left are put behind the last, or old items left are dropped. -/
def list [BEq α] [Diff α] (cursor : Nat) : (old new : List α) → List Edit
  | [], new => new.map fun b => .add [behindLast] (encode b)
  | old@(_ :: _), [] => old.map fun _ => .remove [item cursor]
  | a :: old, b :: new =>
      if new.length < old.length && !(b :: new).contains a then
        .remove [item cursor] :: list cursor old (b :: new)
      else under (item cursor) (edits a b) ++ list (cursor + 1) old new

/-- The keys of either map, in ascending order. -/
def eitherKeys {κ β : Type} [KeyOrder κ] (old new : SortedMap κ β) : List κ :=
  (SortedMap.ofList ((old.keys ++ new.keys).map fun k => (k, ()))).keys

/-- Maps by key, in ascending order of key. -/
def map {κ : Type} [MapKey κ] [Diff α] (old new : SortedMap κ α) : List Edit :=
  (eitherKeys old new).flatMap fun k =>
    under (MapKey.name k) (presence (old.get? k) (new.get? k))

end

instance : Diff Bool := ⟨scalar⟩
instance : Diff String := ⟨scalar⟩
instance : Diff UInt8 := ⟨scalar⟩
instance : Diff UInt16 := ⟨scalar⟩
instance : Diff UInt32 := ⟨scalar⟩
instance : Diff UInt64 := ⟨scalar⟩
instance : Diff Int32 := ⟨scalar⟩
instance : Diff Int64 := ⟨scalar⟩
instance : Diff Double := ⟨scalar⟩
instance : Diff Single := ⟨scalar⟩
instance (priority := low) {α : Type} [Constant α] [BEq α] : Diff α := ⟨scalar⟩

variable {α : Type} [Encode α] [Diff α]

instance : Diff (Option α) := ⟨presence⟩
instance [BEq α] : Diff (List α) := ⟨list 0⟩
instance {κ : Type} [MapKey κ] : Diff (SortedMap κ α) := ⟨map⟩

/-- The patch from one snapshot of a value to another; either may be absent. -/
def snapshots (old new : Option α) : List Operation := (presence old new).map Operation.ofEdit

/-- The patch between two present values. -/
def values (old new : α) : List Operation := snapshots (some old) (some new)

end Diff

end MbsClient
