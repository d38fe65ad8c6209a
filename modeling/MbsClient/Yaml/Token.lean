import MbsClient.Yaml.Scalar

/-!
# Tokens — a YAML text as marks of structure and scalars

Block collections have no closing mark of their own: indentation opens and closes them. That a
scalar or flow collection is a key shows only at the colon behind it, so the scan remembers for
every flow level where a key may have started (`Candidate`) and puts the mark there later.
-/

namespace MbsClient.Yaml

inductive Token where
  | documentStart
  | documentEnd
  | blockSequence
  | blockMapping
  /-- Closes the innermost block collection. -/
  | blockEnd
  | flowSequence
  | flowSequenceEnd
  | flowMapping
  | flowMappingEnd
  /-- The dash in front of an item. -/
  | item
  | comma
  | key
  | value
  | scalar (text : String) (plain : Bool)
deriving DecidableEq, Repr

/-- A place where a key may have started. -/
structure Candidate where
  /-- How many tokens are in front of it. -/
  tokens : Nat
  /-- It stands where only a key may stand. -/
  required : Bool
  line : Nat
  column : Nat
  index : Nat

structure Scan where
  cursor : Cursor
  tokens : Array Token := #[]
  /-- The columns of the open block collections, innermost first. -/
  indents : List Nat := []
  /-- The candidates of the open flow collections, innermost first. -/
  flows : List (Option Candidate) := []
  /-- The candidate outside of all flow collections. -/
  block : Option Candidate := none
  /-- A key may start here. -/
  keyAllowed : Bool := true

namespace Scan

def inFlow (s : Scan) : Bool := !s.flows.isEmpty

def emit (s : Scan) (t : Token) : Scan := { s with tokens := s.tokens.push t }

def candidate (s : Scan) : Option Candidate := s.flows.head?.getD s.block

def setCandidate (s : Scan) (k : Option Candidate) : Scan :=
  match s.flows with
  | _ :: outer => { s with flows := k :: outer }
  | [] => { s with block := k }

/-- Whether the innermost block collection lies to the left of a column. -/
def isInside (s : Scan) (column : Nat) : Bool := s.indents.head?.all (· < column)

/-- The first column that belongs to the innermost block collection alone. -/
def innerColumn (s : Scan) : Nat := s.indents.head?.elim 0 (· + 1)

/-- Gives up the candidate; a required one must not be given up. -/
def dropCandidate? (s : Scan) : Option Scan :=
  if s.candidate.any Candidate.required then none else some (s.setCandidate none)

/-- Remembers that a key may start here. -/
def saveCandidate? (s : Scan) : Option Scan :=
  if s.keyAllowed then do
    let s ← s.dropCandidate?
    let c := s.cursor
    return s.setCandidate <| some
      { tokens := s.tokens.size
        required := !s.inFlow && s.indents.head? = some c.column
        line := c.line, column := c.column, index := c.index }
  else some s

/-- A key and the colon behind it are on one line, no more bytes than this apart. -/
def maxKeyLength : Nat := 1024

def isStale (c : Cursor) (k : Candidate) : Bool :=
  k.line < c.line || k.index + maxKeyLength < c.index

/-- Gives up the candidates that lie too far back. -/
def dropStale? (s : Scan) : Option Scan :=
  let stale := isStale s.cursor
  if (s.block :: s.flows).any fun k => k.any fun k => stale k && k.required then none
  else
    let keep := fun k : Option Candidate => k.filter fun k => !stale k
    some { s with block := keep s.block, flows := s.flows.map keep }

/-- Opens a block collection at a column behind the first `position` tokens, unless the innermost
one is there already. -/
def openBlock (s : Scan) (column position : Nat) (t : Token) : Scan :=
  if !s.inFlow && s.isInside column then
    { s with indents := column :: s.indents, tokens := s.tokens.insertIdxIfInBounds position t }
  else s

/-- Closes the block collections to the right of a column; no column closes them all. -/
def closeBlocks (s : Scan) (column : Option Nat) : Scan :=
  if s.inFlow then s
  else
    let closed := s.indents.takeWhile fun i => column.all (· < i)
    { s with indents := s.indents.drop closed.length,
             tokens := s.tokens ++ closed.map fun _ => Token.blockEnd }

/-- Passes over blanks, comments and breaks. A tab must not stand where a key may start in a block
collection. A byte order mark at the start of a line takes a column like a blank. -/
def skipToToken (s : Scan) : (fuel : Nat) → Scan
  | 0 => s
  | fuel + 1 =>
      match s.cursor.rest with
      | [] => s
      | ch :: _ =>
          if s.cursor.isByteOrderMark || ch = ' ' ||
              (ch = '\t' && (s.inFlow || !s.keyAllowed)) then
            { s with cursor := s.cursor.next }.skipToToken fuel
          else if ch = '#' then { s with cursor := s.cursor.skipLine }.skipToToken fuel
          else if isBreak ch then
            { s with cursor := s.cursor.next, keyAllowed := s.keyAllowed || !s.inFlow }.skipToToken
              fuel
          else s

/-! ## One token -/

def marker? (s : Scan) (t : Token) : Option Scan := do
  let s ← (s.closeBlocks none).dropCandidate?
  return { s.emit t with keyAllowed := false, cursor := s.cursor.skip 3 }

def openFlow? (s : Scan) (t : Token) : Option Scan := do
  let s ← s.saveCandidate?
  return { s.emit t with flows := none :: s.flows, keyAllowed := true, cursor := s.cursor.next }

def closeFlow? (s : Scan) (t : Token) : Option Scan := do
  let s ← s.dropCandidate?
  return { s.emit t with flows := s.flows.tail, keyAllowed := false, cursor := s.cursor.next }

def comma? (s : Scan) : Option Scan := do
  let s ← s.dropCandidate?
  return { s.emit .comma with keyAllowed := true, cursor := s.cursor.next }

/-- An indicator that may open a block collection where it stands. -/
def indicator? (s : Scan) (collection t : Token) : Option Scan := do
  if !s.inFlow && !s.keyAllowed then none
  let s ← (s.openBlock s.cursor.column s.tokens.size collection).dropCandidate?
  return { s.emit t with keyAllowed := t = .item || !s.inFlow, cursor := s.cursor.next }

/-- A colon makes the candidate a key; without one, the key is missing. -/
def colon? (s : Scan) : Option Scan :=
  match s.candidate with
  | some k =>
      let s := { s with tokens := s.tokens.insertIdxIfInBounds k.tokens .key }
      let s := (s.openBlock k.column k.tokens .blockMapping).setCandidate none
      some { s.emit .value with keyAllowed := false, cursor := s.cursor.next }
  | none =>
      if !s.inFlow && !s.keyAllowed then none
      else
        let s := s.openBlock s.cursor.column s.tokens.size .blockMapping
        some { s.emit .value with keyAllowed := !s.inFlow, cursor := s.cursor.next }

def quotedScalar? (s : Scan) (q : Quote) : Option Scan := do
  let s ← s.saveCandidate?
  let (text, cursor) ← quoted? q (s.cursor.rest.length + 1) s.cursor.next
  return { s.emit (.scalar (String.ofList text) false) with keyAllowed := false, cursor }

def plainScalar? (s : Scan) : Option Scan := do
  let s ← s.saveCandidate?
  let (text, broken, cursor) ← plain? s.inFlow s.innerColumn (s.cursor.rest.length + 1) s.cursor
  return { s.emit (.scalar (String.ofList text) true) with keyAllowed := broken, cursor }

/-- Takes the token at the cursor. -/
def token? (s : Scan) : Option Scan :=
  let c := s.cursor
  if c.isDocumentStart then s.marker? .documentStart
  else if c.isDocumentEnd then s.marker? .documentEnd
  else
    match c.rest with
    | '[' :: _ => s.openFlow? .flowSequence
    | '{' :: _ => s.openFlow? .flowMapping
    | ']' :: _ => s.closeFlow? .flowSequenceEnd
    | '}' :: _ => s.closeFlow? .flowMappingEnd
    | ',' :: _ => s.comma?
    | '\'' :: _ => s.quotedScalar? .single
    | '"' :: _ => s.quotedScalar? .double
    | rest =>
        let before (indicator : Char) (anywhere : Bool) :=
          rest.head? = some indicator && (anywhere || isGapAt rest.tail)
        if before '-' false then s.indicator? .blockSequence .item
        else if before '?' s.inFlow then s.indicator? .blockMapping .key
        else if before ':' s.inFlow then s.colon?
        else if startsPlain s.inFlow rest then s.plainScalar?
        else none

/-- Takes all tokens that are left. -/
def tokens? : (fuel : Nat) → Scan → Option (List Token)
  | 0, _ => none
  | fuel + 1, s => do
      let s ← (s.skipToToken (s.cursor.rest.length + 1)).dropStale?
      if s.cursor.rest.isEmpty then
        let s ← (s.closeBlocks none).dropCandidate?
        return s.tokens.toList
      tokens? fuel (← (s.closeBlocks (some s.cursor.column)).token?)

end Scan

/-- The tokens of a text. -/
def Token.scan? (text : String) : Option (List Token) :=
  let cs := text.toList
  if cs.all isPrintable then Scan.tokens? (cs.length + 1) { cursor := { rest := unifyBreaks cs } }
  else none

end MbsClient.Yaml
