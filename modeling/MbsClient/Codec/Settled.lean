import MbsClient.Json.Value

/-!
# Settled documents — read before it is known what they are to be

Every scalar of a settled document has been taken for what it looks like. A document is settled
where one of its members tells what the others are to be.
-/

namespace MbsClient

open Number

/-- What a document calls a member of a record. -/
inductive Label where
  | name (s : String)
  /-- The place of the member in the record, counted from 0. -/
  | place (n : Nat)
deriving DecidableEq, Repr

inductive Settled where
  | null
  | bool (b : Bool)
  | int (n : Int)
  | float (x : Double)
  | text (s : String)
  | list (items : List Settled)
  /-- A key that calls no member has no label. -/
  | record (members : List (Option Label × Settled))

namespace Settled

mutual
def ofJson : Json → Settled
  | .null => .null
  | .bool b => .bool b
  | .int n => .int n
  | .float x => .float x
  | .string s => .text s
  | .array items => .list (ofItems items)
  | .object members => .record (ofMembers members)

def ofItems : List Json → List Settled
  | [] => []
  | v :: rest => ofJson v :: ofItems rest

def ofMembers : List (String × Json) → List (Option Label × Settled)
  | [] => []
  | (name, v) :: rest => (some (.name name), ofJson v) :: ofMembers rest
end

end Settled

end MbsClient
