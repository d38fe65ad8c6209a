import MbsClient.Yaml.Token

/-!
# Nodes — the document of a YAML text

A text holds one document. Scalars are kept as they are written, because what a plain scalar stands
for depends on what is asked for (`MbsClient.Yaml.Plain`).
-/

namespace MbsClient.Yaml

inductive Node where
  | scalar (text : String) (plain : Bool)
  | sequence (items : List Node)
  | mapping (entries : List (Node × Node))
  /-- A collection inside too many others, which can be passed over but not read. -/
  | tooDeep

namespace Node

/-- A node that is not written at all. -/
def empty : Node := .scalar "" true

/-- Tokens in front of which a block node may be left out. -/
def endsBlockNode : Token → Bool
  | .key => true
  | .value => true
  | .blockEnd => true
  | _ => false

/-- Tokens in front of which a flow node may be left out. -/
def endsFlowNode : Token → Bool
  | .value => true
  | .comma => true
  | .flowSequenceEnd => true
  | .flowMappingEnd => true
  | _ => false

/-! ## Productions

Each takes the tokens from where it starts and gives back those behind it. No production is entered
more than four times at one token, which bounds the fuel. -/

mutual

/-- One node. A sequence that is the value of a mapping may be indented no further than the mapping;
it has no token to open it. -/
def node? (fuel : Nat) (block : Bool) (tokens : List Token) : Option (Node × List Token) :=
  match fuel, tokens with
  | 0, _ => none
  | _ + 1, .scalar text plain :: rest => some (.scalar text plain, rest)
  | fuel + 1, .flowSequence :: rest => flowItems? fuel [] rest
  | fuel + 1, .flowMapping :: rest => flowEntries? fuel [] rest
  | fuel + 1, .blockSequence :: rest => if block then blockItems? fuel [] rest else none
  | fuel + 1, .blockMapping :: rest => if block then blockEntries? fuel [] rest else none
  | _, _ => none

/-- The items of a block sequence, up to its end. -/
def blockItems? (fuel : Nat) (items : List Node) (tokens : List Token) :
    Option (Node × List Token) :=
  match fuel, tokens with
  | fuel + 1, .item :: rest => do
      let (item, rest) ← match rest with
        | .item :: _ => some (empty, rest)
        | .blockEnd :: _ => some (empty, rest)
        | _ => node? fuel true rest
      blockItems? fuel (items ++ [item]) rest
  | _, .blockEnd :: rest => some (.sequence items, rest)
  | _, _ => none

/-- The items of a sequence in the column of the mapping around it. -/
def flushItems? (fuel : Nat) (items : List Node) (tokens : List Token) :
    Option (Node × List Token) :=
  match fuel, tokens with
  | 0, _ => none
  | fuel + 1, .item :: rest => do
      let (item, rest) ← match rest with
        | .item :: _ => some (empty, rest)
        | t :: _ => if endsBlockNode t then some (empty, rest) else node? fuel true rest
        | [] => none
      flushItems? fuel (items ++ [item]) rest
  | _, rest => some (.sequence items, rest)

/-- A key or value of a block mapping. -/
def blockPart? (fuel : Nat) (tokens : List Token) : Option (Node × List Token) :=
  match fuel, tokens with
  | 0, _ => none
  | fuel + 1, .item :: rest => flushItems? fuel [] (.item :: rest)
  | fuel + 1, t :: rest =>
      if endsBlockNode t then some (empty, t :: rest) else node? fuel true (t :: rest)
  | _, [] => none

/-- The entries of a block mapping, up to its end. -/
def blockEntries? (fuel : Nat) (entries : List (Node × Node)) (tokens : List Token) :
    Option (Node × List Token) :=
  match fuel, tokens with
  | fuel + 1, .key :: rest => do
      let (key, rest) ← blockPart? fuel rest
      let (value, rest) ← match rest with
        | .value :: rest => blockPart? fuel rest
        | _ => some (empty, rest)
      blockEntries? fuel (entries ++ [(key, value)]) rest
  | _, .blockEnd :: rest => some (.mapping entries, rest)
  | _, _ => none

/-- A key or value in a flow collection. -/
def flowPart? (fuel : Nat) (tokens : List Token) : Option (Node × List Token) :=
  match fuel, tokens with
  | 0, _ => none
  | fuel + 1, t :: rest =>
      if endsFlowNode t then some (empty, t :: rest) else node? fuel false (t :: rest)
  | _, [] => none

/-- An entry of a flow mapping, from behind the mark of its key. -/
def flowEntry? (fuel : Nat) (tokens : List Token) : Option ((Node × Node) × List Token) :=
  match fuel with
  | 0 => none
  | fuel + 1 => do
      let (key, rest) ← flowPart? fuel tokens
      match rest with
      | .value :: rest =>
          let (value, rest) ← flowPart? fuel rest
          return ((key, value), rest)
      | _ => return ((key, empty), rest)

/-- A mapping of one entry as the item of a flow sequence, from behind the mark of its key. Where
the key is left out, the colon, comma or bracket that shows it is taken together with it. -/
def flowPair? (fuel : Nat) (tokens : List Token) : Option (Node × List Token) :=
  match fuel, tokens with
  | fuel + 1, t :: rest => do
      let (key, rest) ←
        if t = .value || t = .comma || t = .flowSequenceEnd then some (empty, rest)
        else node? fuel false (t :: rest)
      match rest with
      | .value :: rest =>
          let (value, rest) ← flowPart? fuel rest
          return (.mapping [(key, value)], rest)
      | _ => return (.mapping [(key, empty)], rest)
  | _, _ => none

/-- The items of a flow sequence, up to its end. A comma may follow the last one. -/
def flowItems? (fuel : Nat) (items : List Node) (tokens : List Token) :
    Option (Node × List Token) :=
  match fuel, tokens with
  | 0, _ => none
  | _ + 1, .flowSequenceEnd :: rest => some (.sequence items, rest)
  | fuel + 1, tokens => do
      let (item, rest) ← match tokens with
        | .key :: rest => flowPair? fuel rest
        | _ => node? fuel false tokens
      match rest with
      | .comma :: rest => flowItems? fuel (items ++ [item]) rest
      | .flowSequenceEnd :: rest => some (.sequence (items ++ [item]), rest)
      | _ => none

/-- The entries of a flow mapping, up to its end. A key may stand alone. -/
def flowEntries? (fuel : Nat) (entries : List (Node × Node)) (tokens : List Token) :
    Option (Node × List Token) :=
  match fuel, tokens with
  | 0, _ => none
  | _ + 1, .flowMappingEnd :: rest => some (.mapping entries, rest)
  | fuel + 1, tokens => do
      let (entry, rest) ← match tokens with
        | .key :: rest => flowEntry? fuel rest
        | _ => do
            let (key, rest) ← node? fuel false tokens
            some ((key, empty), rest)
      match rest with
      | .comma :: rest => flowEntries? fuel (entries ++ [entry]) rest
      | .flowMappingEnd :: rest => some (.mapping (entries ++ [entry]), rest)
      | _ => none

end

/-- The one document that tokens make up. Nothing at all is an empty node; a document may end with
any number of marks. -/
def ofTokens? (tokens : List Token) : Option Node := do
  let fuel := 4 * tokens.length + 4
  let atEnd := fun rest : List Token => rest.all (· = .documentEnd)
  match tokens with
  | [] => return empty
  | .documentStart :: rest =>
      if atEnd rest then return empty
      let (n, rest) ← node? fuel true rest
      if atEnd rest then return n else none
  | tokens =>
      let (n, rest) ← node? fuel true tokens
      if atEnd rest then return n else none

/-! ## Depth -/

/-- A collection that is read lies in fewer others than this. -/
def maxDepth : Nat := 128

mutual
/-- The node without the collections that lie in `levels` others. -/
def cut : (levels : Nat) → Node → Node
  | 0, .sequence _ => .tooDeep
  | 0, .mapping _ => .tooDeep
  | levels + 1, .sequence items => .sequence (cutItems levels items)
  | levels + 1, .mapping entries => .mapping (cutEntries levels entries)
  | _, n => n

def cutItems (levels : Nat) : List Node → List Node
  | [] => []
  | n :: rest => cut levels n :: cutItems levels rest

def cutEntries (levels : Nat) : List (Node × Node) → List (Node × Node)
  | [] => []
  | (key, n) :: rest => (cut levels key, cut levels n) :: cutEntries levels rest
end

/-- The document of a text. -/
def parse? (text : String) : Option Node :=
  ((Token.scan? text).bind ofTokens?).map (cut maxDepth)

end Node

end MbsClient.Yaml
