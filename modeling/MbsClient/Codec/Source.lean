import MbsClient.Codec.Settled
import MbsClient.Error
import MbsClient.Text.Decimal

/-!
# Sources — documents that values are decoded from

What a decoder asks of a document is the same for every format; formats differ in what they take
for a number, a text or nothing. The answers for JSON and for settled documents are here, those for
YAML beside its nodes.
-/

namespace MbsClient

open Number

/-- The members of a record that a document gives. -/
structure Fields (σ : Type) where
  given : List (String × σ)
  /-- Given as a list. -/
  listed : Bool

namespace Fields

/-- Members without names, in the order of the record; there must not be more of them than it
has. -/
def ofList? {σ : Type} (names : List String) (items : List σ) : Option (Fields σ) :=
  if items.length ≤ names.length then some ⟨names.zip items, true⟩ else none

end Fields

/-- A document in some format. Each question has an answer only where the document is of that
kind. -/
class Source (σ : Type) where
  /-- Stands for an absent optional value. -/
  isNull : σ → Bool
  bool? : σ → Option Bool
  /-- A number without fraction and exponent. -/
  int? : σ → Option Int
  /-- A number with fraction or exponent. -/
  float? : σ → Option Double
  text? : σ → Option String
  /-- The name of a constant. -/
  word? : σ → Option String
  items? : σ → Option (List σ)
  /-- The members of a map whose keys are texts. -/
  members? : σ → Option (List (String × σ))
  /-- The members of a map whose keys are integers; a key that is none has none. -/
  numbered? : σ → Option (List (Option Int × σ))
  /-- The members of a record that has the given member names. -/
  fields? : (names : List String) → σ → Option (Fields σ)
  /-- The document with every scalar taken for what it looks like, whatever is asked for. -/
  settle? : σ → Option Settled

namespace Json

/-- A decimal integer without superfluous zeros; only a number above zero may be negative. -/
def keyInt? (name : String) : Option Int :=
  match name.toList with
  | '-' :: ds =>
      match Text.Decimal.plain? ds with
      | some 0 => none
      | some n => some (-(n : Int))
      | none => none
  | ds => (Text.Decimal.plain? ds).map Int.ofNat

def bool? : Json → Option Bool
  | .bool b => some b
  | _ => none

def int? : Json → Option Int
  | .int n => some n
  | _ => none

def float? : Json → Option Double
  | .float x => some x
  | _ => none

def text? : Json → Option String
  | .string s => some s
  | _ => none

/-- A constant is its name, or an object that has the name as its only member, holding `null`. -/
def word? : Json → Option String
  | .string s => some s
  | .object [(name, .null)] => some name
  | _ => none

def items? : Json → Option (List Json)
  | .array items => some items
  | _ => none

def members? : Json → Option (List (String × Json))
  | .object members => some members
  | _ => none

instance : Source Json where
  isNull := isNull
  bool? := bool?
  int? := int?
  float? := float?
  text? := text?
  word? := word?
  items? := items?
  members? := members?
  numbered? v := v.members?.map fun ms => ms.map fun (name, v) => (keyInt? name, v)
  fields? names
    | .object members => some ⟨members, false⟩
    | .array items => Fields.ofList? names items
    | _ => none
  settle? v := some (.ofJson v)

end Json

namespace Settled

def text? : Settled → Option String
  | .text s => some s
  | _ => none

/-- The members of a record; one that is called by its place gets its name, and one in a place that
the record does not have goes. -/
def named? (names : List String) (members : List (Option Label × Settled)) :
    Option (List (String × Settled)) := do
  let labelled ← members.mapM fun (label, v) => label.map (·, v)
  return labelled.filterMap fun (label, v) =>
    match label with
    | .name s => some (s, v)
    | .place n => names[n]?.map (·, v)

instance : Source Settled where
  isNull
    | .null => true
    | _ => false
  bool?
    | .bool b => some b
    | _ => none
  int?
    | .int n => some n
    | _ => none
  float?
    | .float x => some x
    | _ => none
  text? := text?
  word? := text?
  items?
    | .list items => some items
    | _ => none
  members?
    | .record members => members.mapM fun (label, v) =>
        match label with
        | some (.name s) => some (s, v)
        | _ => none
    | _ => none
  numbered?
    | .record members => some <| members.map fun (label, v) =>
        (match label with | some (.place n) => some (n : Int) | _ => none, v)
    | _ => none
  fields? names
    | .record members => (named? names members).map (⟨·, false⟩)
    | .list items => Fields.ofList? names items
    | _ => none
  settle? := some

end Settled

/-- Decoding either gives a value or says what is wrong with the document. -/
abbrev Decoded (α : Type) := Except DecodeError α

/-- Types that documents decode into. -/
class Decode (α : Type) where
  decode : {σ : Type} → [Source σ] → σ → Decoded α

export Decode (decode)

/-- A document that has to be of a kind. -/
def needed {α : Type} : Option α → Decoded α
  | some a => .ok a
  | none => .error .shape

/-! ## Records -/

namespace Fields

variable {σ : Type} [Source σ]

/-- The members of a record with the given member names. Members of other names are passed over;
a name of the record must not occur twice. -/
def read (names : List String) (d : σ) : Decoded (Fields σ) :=
  match Source.fields? names d with
  | some fields =>
      if names.all fun n => (fields.given.filter fun m => m.1 = n).length ≤ 1 then .ok fields
      else .error .shape
  | none => .error .shape

variable {α : Type} [Decode α]

/-- The member under `name`, if it is given. -/
def member? (fs : Fields σ) (name : String) : Decoded (Option α) :=
  match fs.given.find? fun m => m.1 = name with
  | some m => (decode m.2).map some
  | none => .ok none

/-- A member that may be missing or null. -/
def optional (fs : Fields σ) (name : String) : Decoded (Option α) :=
  match fs.given.find? fun m => m.1 = name with
  | some m => if Source.isNull m.2 then .ok none else (decode m.2).map some
  | none => .ok none

end Fields

/-! ## Values without members -/

/-- A natural number of `bits` bits. -/
def decodeNat {σ : Type} [Source σ] (bits : Nat) (d : σ) : Decoded Nat :=
  match Source.int? d with
  | some n => if 0 ≤ n ∧ n < Nat.pow 2 bits then .ok n.toNat else .error .shape
  | none => .error .shape

/-- An integer of `bits` bits with sign. -/
def decodeInt {σ : Type} [Source σ] (bits : Nat) (d : σ) : Decoded Int :=
  match Source.int? d with
  | some n =>
      let bound : Int := Nat.pow 2 (bits - 1)
      if -bound ≤ n ∧ n < bound then .ok n else .error .shape
  | none => .error .shape

instance : Decode Bool := ⟨fun d => needed (Source.bool? d)⟩
instance : Decode String := ⟨fun d => needed (Source.text? d)⟩
instance : Decode UInt8 := ⟨fun d => (decodeNat 8 d).map UInt8.ofNat⟩
instance : Decode UInt16 := ⟨fun d => (decodeNat 16 d).map UInt16.ofNat⟩
instance : Decode UInt32 := ⟨fun d => (decodeNat 32 d).map UInt32.ofNat⟩
instance : Decode UInt64 := ⟨fun d => (decodeNat 64 d).map UInt64.ofNat⟩
instance : Decode Int32 := ⟨fun d => (decodeInt 32 d).map Int32.ofInt⟩
instance : Decode Int64 := ⟨fun d => (decodeInt 64 d).map Int64.ofInt⟩

/-- Integers are floats too. -/
instance : Decode Double where
  decode d :=
    match Source.float? d with
    | some x => .ok x
    | none => (needed (Source.int? d)).map Double.ofInt

/-- An integer is rounded to single precision at once, any other number from double precision. -/
instance : Decode Single where
  decode d :=
    match Source.float? d with
    | some x => .ok (.ofDouble x)
    | none => (needed (Source.int? d)).map Single.ofInt

section Containers

variable {α : Type} [Decode α]

instance : Decode (Option α) where
  decode d := if Source.isNull d then .ok none else (decode d).map some

instance : Decode (List α) where
  decode d := do (← needed (Source.items? d)).mapM decode

/-- A key that occurs again replaces the earlier entry. -/
instance : Decode (SortedMap String α) where
  decode d := do
    let entries ← (← needed (Source.members? d)).mapM fun (k, v) => return (k, ← decode v)
    return .ofList entries

/-- The entries of a map whose keys are integers of some range. -/
def decodeNumbered {κ σ : Type} [KeyOrder κ] [Source σ] (key? : Int → Option κ) (d : σ) :
    Decoded (SortedMap κ α) := do
  let entries ← (← needed (Source.numbered? d)).mapM fun (k, v) =>
    return (← needed (k.bind key?), ← decode v)
  return .ofList entries

instance : Decode (SortedMap UInt32 α) where
  decode := decodeNumbered fun n => if 0 ≤ n ∧ n < UInt32.size then some (.ofNat n.toNat) else none

instance : Decode (SortedMap Int α) where
  decode := decodeNumbered fun n =>
    if Int64.minValue.toInt ≤ n ∧ n ≤ Int64.maxValue.toInt then some n else none

end Containers

/-- The value of the constant with the given name. -/
def decodeWord {α σ : Type} [Source σ] (words : List (String × α)) (d : σ) : Decoded α := do
  let word ← needed (Source.word? d)
  needed ((words.find? fun w => w.1 = word).map Prod.snd)

end MbsClient
