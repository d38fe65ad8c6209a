import MbsClient.Codec.Source
import MbsClient.Yaml.Node
import MbsClient.Yaml.Plain

/-!
# Values — documents whose scalars are settled

A value has decided for every scalar whether it is a text or something else, while a node still
takes a plain scalar for whatever is asked for. Values are strict: no mapping has a key twice.
-/

namespace MbsClient.Yaml

open Number

inductive Value where
  | null
  | bool (b : Bool)
  | int (n : Int)
  | float (x : Double)
  | text (s : String)
  | sequence (items : List Value)
  | mapping (entries : List (Value × Value))

namespace Value

mutual
/-- Equality of values. There is one NaN and one zero of every kind of number, and the entries of
a mapping are in no order. -/
def same : Value → Value → Bool
  | .null, .null => true
  | .bool a, .bool b => a == b
  | .int m, .int n => m == n
  | .float x, .float y => x == y || (x.isNaN && y.isNaN)
  | .text s, .text t => s == t
  | .sequence xs, .sequence ys => sameItems xs ys
  | .mapping xs, .mapping ys => xs.length == ys.length && entriesAreIn ys xs
  | _, _ => false

def sameItems : List Value → List Value → Bool
  | [], [] => true
  | x :: xs, y :: ys => same x y && sameItems xs ys
  | _, _ => false

/-- Whether all of the latter entries are among the former. -/
def entriesAreIn (ys : List (Value × Value)) : List (Value × Value) → Bool
  | [] => true
  | (key, x) :: xs => ys.any (fun y => same key y.1 && same x y.2) && entriesAreIn ys xs
end

instance : BEq Value := ⟨same⟩

/-- An integer of 64 bits, with or without sign; there are no larger ones. -/
def ofInt? (n : Int) : Option Value :=
  if Int64.minValue.toInt ≤ n ∧ n < UInt64.size then some (.int n) else none

/-- Whether an integer has more than 128 bits, so that its spelling is not taken for one. -/
def isExcessive (n : Int) : Bool := n < -Nat.pow 2 127 || Nat.pow 2 128 ≤ n

/-- What a scalar stands for. -/
def ofScalar? (s : String) (plain : Bool) : Option Value :=
  let numberOrText : Value := ((Plain.float? s).map .float).getD (.text s)
  if !plain then some (.text s)
  else if Plain.isNull s then some .null
  else
    match Plain.bool? s, Plain.int? s with
    | some b, _ => some (.bool b)
    | none, some n => if isExcessive n then some numberOrText else ofInt? n
    | none, none => some numberOrText

mutual
/-- The value of a node, without regard to keys that occur twice. -/
def ofNode? : Node → Option Value
  | .scalar s plain => ofScalar? s plain
  | .sequence items => (ofItems? items).map .sequence
  | .mapping entries => (ofEntries? entries).map .mapping
  | .tooDeep => none

def ofItems? : List Node → Option (List Value)
  | [] => some []
  | n :: rest => do return (← ofNode? n) :: (← ofItems? rest)

def ofEntries? : List (Node × Node) → Option (List (Value × Value))
  | [] => some []
  | (key, n) :: rest => do return (← ofNode? key, ← ofNode? n) :: (← ofEntries? rest)
end

mutual
/-- Whether no mapping has a key twice. -/
def hasUniqueKeys : Value → Bool
  | .sequence items => itemsHaveUniqueKeys items
  | .mapping entries => entriesHaveUniqueKeys entries
  | _ => true

def itemsHaveUniqueKeys : List Value → Bool
  | [] => true
  | v :: rest => hasUniqueKeys v && itemsHaveUniqueKeys rest

def entriesHaveUniqueKeys : List (Value × Value) → Bool
  | [] => true
  | (key, v) :: rest =>
      !(rest.map Prod.fst).contains key && hasUniqueKeys key && hasUniqueKeys v &&
        entriesHaveUniqueKeys rest
end

/-- The value of a node. -/
def ofStrictNode? (n : Node) : Option Value := (ofNode? n).filter hasUniqueKeys

/-- The value under a key that is a text. -/
def member? (name : String) : Value → Option Value
  | .mapping entries => (entries.find? fun entry => entry.1 == .text name).map Prod.snd
  | _ => none

def isNull : Value → Bool
  | .null => true
  | _ => false

def text? : Value → Option String
  | .text s => some s
  | _ => none

/-- The members of a record: nothing at all, or a mapping all of whose keys are texts. -/
def members? : Value → Option (List (String × Value))
  | .null => some []
  | .mapping entries => entries.mapM fun (key, v) => (text? key).map (·, v)
  | _ => none

/-- What a key calls a member: a text its name, a natural number its place. -/
def label? : Value → Option Label
  | .text s => some (.name s)
  | .int n => if 0 ≤ n then some (.place n.toNat) else none
  | _ => none

mutual
def settled : Value → Settled
  | .null => .null
  | .bool b => .bool b
  | .int n => .int n
  | .float x => .float x
  | .text s => .text s
  | .sequence items => .list (settledItems items)
  | .mapping entries => .record (settledEntries entries)

def settledItems : List Value → List Settled
  | [] => []
  | v :: rest => settled v :: settledItems rest

def settledEntries : List (Value × Value) → List (Option Label × Settled)
  | [] => []
  | (key, v) :: rest => (key.label?, settled v) :: settledEntries rest
end

instance : Source Value where
  isNull := isNull
  bool?
    | .bool b => some b
    | _ => none
  int?
    | .int n => some n
    | _ => none
  float?
    | .float x => some x
    | _ => none
  text? := text?
  word? := text?
  items?
    | .null => some []
    | .sequence items => some items
    | _ => none
  members? := members?
  numbered?
    | .null => some []
    | .mapping entries => some <| entries.map fun (key, v) =>
        (match key with | .int n => some n | _ => none, v)
    | _ => none
  fields? _ v := v.members?.map (⟨·, false⟩)
  settle? v := some v.settled

end Value

/-! ## Nodes -/

namespace Node

/-- The text of a plain scalar. -/
def plain? : Node → Option String
  | .scalar text true => some text
  | _ => none

def text? : Node → Option String
  | .scalar text _ => some text
  | _ => none

def isNull (n : Node) : Bool := n.plain?.any Plain.isNull

/-- Whether nothing is written here, which goes for an empty collection; a null that is spelled out
does not. -/
def isEmpty (n : Node) : Bool := n.plain? = some ""

/-- An integer; a minus sign stands only before a number above zero. -/
def int? (n : Node) : Option Int := do
  let text ← n.plain?
  let k ← Plain.int? text
  if k = 0 && text.toList.head? = some '-' then none else some k

/-- What a key calls a member: a text its name, a number without minus sign its place. -/
def label? : Node → Option Label
  | .scalar s plain =>
      match Value.ofScalar? s plain with
      | some (.text name) => some (.name name)
      | some (.int _) => (Plain.nat? s).map .place
      | _ => none
  | _ => none

mutual
/-- The node with its scalars settled; all of them have to be of some value, also those in keys. -/
def settle? : Node → Option Settled
  | .scalar s plain => (Value.ofScalar? s plain).map Value.settled
  | .sequence items => (settleItems? items).map .list
  | .mapping entries => (settleEntries? entries).map .record
  | .tooDeep => none

def settleItems? : List Node → Option (List Settled)
  | [] => some []
  | n :: rest => do return (← settle? n) :: (← settleItems? rest)

def settleEntries? : List (Node × Node) → Option (List (Option Label × Settled))
  | [] => some []
  | (key, n) :: rest => do
      let _ ← settle? key
      return (key.label?, ← settle? n) :: (← settleEntries? rest)
end

/-- The members of a mapping whose keys are texts, or of nothing at all. -/
def members? : Node → Option (List (String × Node))
  | .mapping entries => entries.mapM fun (key, v) => key.text?.map (·, v)
  | n => if n.isEmpty then some [] else none

instance : Source Node where
  isNull := isNull
  bool? n := n.plain?.bind Plain.bool?
  int? := int?
  float? n := n.plain?.bind Plain.float?
  text? := text?
  word? := text?
  items? n := match n with
    | .sequence items => some items
    | n => if n.isEmpty then some [] else none
  members? := members?
  numbered? n := match n with
    | .mapping entries => some <| entries.map fun (key, v) => (key.int?, v)
    | n => if n.isEmpty then some [] else none
  fields? _ n := n.members?.map (⟨·, false⟩)
  settle? := settle?

end Node

end MbsClient.Yaml
