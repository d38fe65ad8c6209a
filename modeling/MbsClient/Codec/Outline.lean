import MbsClient.Codec.Source
import MbsClient.Json.Outline

/-!
# Outlines as sources

Decoding a JSON text reads only what it asks for, so members of other names may hold what stands
for nothing. What has to be settled is read in full.
-/

namespace MbsClient.Json.Outline

/-- The value of a part that is no collection. -/
def scalar? : Outline → Option Json
  | .scalar v => some v
  | _ => none

def members? : Outline → Option (List (String × Outline))
  | .object members => members.mapM fun (name, v) => name.text?.map (·, v)
  | _ => none

/-- The integer that a name is; its digits are not written as escapes. -/
def keyInt? (name : Name) : Option Int :=
  if name.escaped then none else name.text?.bind Json.keyInt?

instance : Source Outline where
  isNull v := v.scalar?.any isNull
  bool? v := v.scalar?.bind bool?
  int? v := v.scalar?.bind int?
  float? v := v.scalar?.bind float?
  text? v := v.scalar?.bind text?
  word?
    | .scalar v => v.text?
    | .object [(name, .scalar .null)] => name.text?
    | _ => none
  items?
    | .array items => some items
    | _ => none
  members? := members?
  numbered?
    | .object members => some <| members.map fun (name, v) => (keyInt? name, v)
    | _ => none
  fields? names
    | .array items => Fields.ofList? names items
    | v => v.members?.map (⟨·, false⟩)
  settle? v := v.value?.map .ofJson

end MbsClient.Json.Outline
