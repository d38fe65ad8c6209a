import MbsClient.Json.Value

/-!
# Outlines — JSON texts taken apart

A part of a text can stand for nothing although it is well written: a number out of range, a string
with half of a surrogate pair, a collection inside too many others. It does no harm to the rest of
the text, as long as nobody reads it.
-/

namespace MbsClient.Json

/-- The name of a member. -/
structure Name where
  /-- None if half of a surrogate pair is in it. -/
  text? : Option String
  /-- Some character of it is written as an escape. -/
  escaped : Bool

inductive Outline where
  | scalar (v : Json)
  | array (items : List Outline)
  | object (members : List (Name × Outline))
  | unreadable

namespace Outline

mutual
/-- The value of a text all of whose parts can be read. -/
def value? : Outline → Option Json
  | .scalar v => some v
  | .array items => (itemValues? items).map .array
  | .object members => (memberValues? members).map .object
  | .unreadable => none

def itemValues? : List Outline → Option (List Json)
  | [] => some []
  | v :: rest => do return (← value? v) :: (← itemValues? rest)

def memberValues? : List (Name × Outline) → Option (List (String × Json))
  | [] => some []
  | (name, v) :: rest => do
      return (← name.text?, ← value? v) :: (← memberValues? rest)
end

end Outline

end MbsClient.Json
