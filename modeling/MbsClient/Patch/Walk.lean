import MbsClient.Patch.Record
import MbsClient.Patch.Recorder

/-!
# Walks — two values compared with a recorder in hand

A walk goes through the parts of two values, and the cursor of the recorder goes with it: down to a
part before that is compared, and up again afterwards. Each step is recorded at the cursor, with the
whole path. Parts that are one and the same object are not compared.
-/

namespace MbsClient

open Number Patch

namespace Patch.Recorder

/-- Records a step on the value at the cursor. -/
def put (r : Recorder) (kind : Kind) (value : Option Json) : Recorder :=
  { r with recorded := r.recorded ++ [⟨kind, r.cursor, value⟩] }

/-- Records a step on the part `segment` of the value at the cursor, which stays where it is. -/
def putBelow (r : Recorder) (segment : String) (kind : Kind) (value : Option Json) : Recorder :=
  { r with recorded := r.recorded ++ [⟨kind, r.cursor ++ [segment], value⟩] }

/-- Goes down to a part, leaves it to `f`, and comes up again. -/
def nested (r : Recorder) (segment : String) (f : Recorder → Recorder) : Recorder :=
  (f (r.enter segment)).leave

end Patch.Recorder

/-- Types whose values are walked through. -/
class Walk (α : Type) where
  /-- The steps from `old` to `new` at the cursor; `same` if the two are one object. -/
  walk : (same : Bool) → (old new : α) → Recorder → Recorder

export Walk (walk)

namespace Walk

/-- Two values at the cursor, with nothing to do for one object. -/
def value {α : Type} [Walk α] (same : Bool) (old new : α) (r : Recorder) : Recorder :=
  if same then r else walk same old new r

section

variable {α : Type} [Encode α]

/-- A value without parts is replaced as a whole. -/
def scalar [BEq α] (_same : Bool) (old new : α) (r : Recorder) : Recorder :=
  if old == new then r else r.put .replace (some (encode new))

variable [Walk α]

/-- A value that may be absent. -/
def presence (same : Bool) : (old new : Option α) → Recorder → Recorder
  | none, none, r => r
  | none, some new, r => r.put .add (some (encode new))
  | some _, none, r => r.put .remove none
  | some old, some new, r => value same old new r

/-- Lists by position. The items of one list that are paired with each other are one object each. -/
def list [BEq α] (same : Bool) (cursor : Nat) : (old new : List α) → Recorder → Recorder
  | [], new, r => new.foldl (fun r b => r.putBelow behindLast .add (some (encode b))) r
  | old@(_ :: _), [], r => old.foldl (fun r _ => r.putBelow (Diff.item cursor) .remove none) r
  | a :: old, b :: new, r =>
      if new.length < old.length && !(b :: new).contains a then
        list same cursor old (b :: new) (r.putBelow (Diff.item cursor) .remove none)
      else
        list same (cursor + 1) old new (r.nested (Diff.item cursor) (value same a b))

/-- Maps by key, in ascending order of key. -/
def map {κ : Type} [MapKey κ] (same : Bool) (old new : SortedMap κ α) (r : Recorder) : Recorder :=
  (Diff.eitherKeys old new).foldl
    (fun r k => r.nested (MapKey.name k) (presence same (old.get? k) (new.get? k))) r

end

instance : Walk Bool := ⟨scalar⟩
instance : Walk String := ⟨scalar⟩
instance : Walk UInt8 := ⟨scalar⟩
instance : Walk UInt16 := ⟨scalar⟩
instance : Walk UInt32 := ⟨scalar⟩
instance : Walk UInt64 := ⟨scalar⟩
instance : Walk Int32 := ⟨scalar⟩
instance : Walk Int64 := ⟨scalar⟩
instance : Walk Double := ⟨scalar⟩
instance : Walk Single := ⟨scalar⟩
instance (priority := low) {α : Type} [Constant α] [BEq α] : Walk α := ⟨scalar⟩

section

variable {α : Type} [Encode α] [Walk α]

instance : Walk (Option α) := ⟨presence⟩
instance [BEq α] : Walk (List α) := ⟨fun same => list same 0⟩
instance {κ : Type} [MapKey κ] : Walk (SortedMap κ α) := ⟨map⟩

/-! ## Members of records -/

/-- The walk through one member of the records `R`. -/
abbrev Part (R : Type) := (same : Bool) → (old new : R) → Recorder → Recorder

variable {R : Type}

def field (name : String) (get : R → α) : Part R :=
  fun same old new r => r.nested name (value same (get old) (get new))

/-- Only there if set. -/
def flag (name : String) (get : R → Bool) : Part R := fun _ old new r =>
  match get old, get new with
  | false, true => r.nested name (·.put .add (some (encode true)))
  | true, false => r.nested name (·.put .remove none)
  | _, _ => r

/-- Only there if it has items. -/
def sequence [BEq α] (name : String) (get : R → List α) : Part R := fun same old new r =>
  match get old, get new with
  | [], [] => r
  | [], as => r.nested name (·.put .add (some (encode as)))
  | _, [] => r.nested name (·.put .remove none)
  | as, bs => r.nested name (list same 0 as bs)

/-- What is made for the comparison is never one object. -/
def made (part : Part R) : Part R := fun _ => part false

/-- All members, in their order. -/
def through (parts : List (Part R)) : Part R := fun same old new r =>
  parts.foldl (fun r part => part same old new r) r

end

end Walk

/-- Records that are walked through member by member. -/
class RecordWalk (R : Type) where
  parts : List (Walk.Part R)

instance (priority := low) {R : Type} [RecordWalk R] : Walk R := ⟨Walk.through RecordWalk.parts⟩

end MbsClient
