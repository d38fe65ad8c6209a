import MbsClient.Data.SortedMap
import MbsClient.Number.Float

/-!
# JSON values

The members of an object are a list. A value that the library builds (`Json.record`, the encodings
of the model) has them in ascending order of name; a value read from text keeps the order and the
repetitions of the text until `Json.canonical` sorts it.
-/

namespace MbsClient

open Number

/-- A JSON value. A number is an integer if its text has neither fraction nor exponent. -/
inductive Json where
  | null
  | bool (b : Bool)
  | int (n : Int)
  | float (x : Double)
  | string (s : String)
  | array (items : List Json)
  | object (members : List (String × Json))
deriving Inhabited

namespace Json

mutual
/-- Equality of values: numbers compare as numbers of their kind, so the two zeros are equal. -/
def same : Json → Json → Bool
  | .null, .null => true
  | .bool a, .bool b => a == b
  | .int m, .int n => m == n
  | .float x, .float y => x == y
  | .string s, .string t => s == t
  | .array xs, .array ys => sameItems xs ys
  | .object xs, .object ys => sameMembers xs ys
  | _, _ => false

def sameItems : List Json → List Json → Bool
  | [], [] => true
  | x :: xs, y :: ys => same x y && sameItems xs ys
  | _, _ => false

def sameMembers : List (String × Json) → List (String × Json) → Bool
  | [], [] => true
  | (k, x) :: xs, (l, y) :: ys => k == l && same x y && sameMembers xs ys
  | _, _ => false
end

instance : BEq Json := ⟨same⟩

/-- The object of the given members, in ascending order of name; a later member replaces an
earlier one of the same name. -/
def ofMembers (members : List (String × Json)) : Json :=
  .object (members.foldl (fun acc (name, v) => Entries.insert name v acc) [])

/-- The object of those members that are there. -/
def record (members : List (String × Option Json)) : Json :=
  ofMembers (members.filterMap fun (name, v) => v.map (name, ·))

mutual
/-- The same value with the members of every object in ascending order of name; the last of several
members of one name is kept. -/
def canonical : Json → Json
  | .array items => .array (canonicalItems items)
  | .object members => ofMembers (canonicalMembers members)
  | v => v

def canonicalItems : List Json → List Json
  | [] => []
  | v :: rest => canonical v :: canonicalItems rest

def canonicalMembers : List (String × Json) → List (String × Json)
  | [] => []
  | (name, v) :: rest => (name, canonical v) :: canonicalMembers rest
end

/-- The member of an object under `name`. -/
def member? (name : String) : Json → Option Json
  | .object members => Entries.get? name members
  | _ => none

def isNull : Json → Bool
  | .null => true
  | _ => false

/-- A number that is not finite has no JSON text and becomes `null`. -/
def ofDouble (x : Double) : Json := if x.isFinite then .float x else .null

def ofNat (n : Nat) : Json := .int n

end Json

end MbsClient
