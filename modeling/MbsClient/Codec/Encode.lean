import MbsClient.Json.Value
import MbsClient.Text.Decimal

/-!
# Encoding values as documents
-/

namespace MbsClient

open Number

/-- Types whose values are written as documents. -/
class Encode (α : Type) where
  encode : α → Json

export Encode (encode)

instance : Encode Bool := ⟨.bool⟩
instance : Encode String := ⟨.string⟩
instance : Encode UInt8 := ⟨fun n => .int n.toNat⟩
instance : Encode UInt16 := ⟨fun n => .int n.toNat⟩
instance : Encode UInt32 := ⟨fun n => .int n.toNat⟩
instance : Encode UInt64 := ⟨fun n => .int n.toNat⟩
instance : Encode Int32 := ⟨fun n => .int n.toInt⟩
instance : Encode Int64 := ⟨fun n => .int n.toInt⟩
instance : Encode Double := ⟨.ofDouble⟩
instance : Encode Single := ⟨fun x => .ofDouble x.toDouble⟩

/-- Keys that a map is written with. -/
class MapKey (κ : Type) extends KeyOrder κ where
  name : κ → String

instance : MapKey String := ⟨id⟩
instance : MapKey UInt32 := ⟨fun k => Text.Decimal.text k.toNat⟩
instance : MapKey Int := ⟨fun k => String.ofList (Text.Decimal.ofInt k)⟩

variable {α : Type} [Encode α]

instance : Encode (Option α) where
  encode
    | some a => encode a
    | none => .null

instance : Encode (List α) := ⟨fun as => .array (as.map encode)⟩

instance {κ : Type} [MapKey κ] : Encode (SortedMap κ α) where
  encode m := .ofMembers (m.entries.map fun (k, a) => (MapKey.name k, encode a))

end MbsClient
