import MbsClient.Text.Hex
import MbsClient.Yaml.Cursor

/-!
# Scalars — plain and quoted text, with lines folded

A reader takes the cursor to behind the scalar and gives its text; `none` is a scalar that breaks a
rule. Text goes on over line breaks, so readers go chunk by chunk with fuel; every chunk takes a
character, so the length of the text is fuel enough.
-/

namespace MbsClient.Yaml

open Text

/-! ## Plain scalars -/

/-- Characters that are structure in a flow collection. -/
def isFlowIndicator (c : Char) : Bool := c ∈ [',', '[', ']', '{', '}']

/-- Whether a plain scalar may start here. -/
def startsPlain (flow : Bool) (rest : List Char) : Bool :=
  match rest with
  | [] => false
  | '-' :: behind => !(behind.head?.any isBlank)
  | '?' :: behind => !flow && !isGapAt behind
  | ':' :: behind => !flow && !isGapAt behind
  | c :: _ =>
      !isGapAt rest && !isFlowIndicator c &&
        !(c ∈ ['#', '&', '*', '!', '|', '>', '\'', '"', '%', '@', '\x60'])

/-- A part of a plain scalar without gaps. A colon in front of a gap ends it, and so do the
indicators of a flow collection; there, a colon right in front of one is refused. -/
def plainChunk? (flow : Bool) (c : Cursor) : Option (List Char × Cursor) :=
  match _ : c.rest with
  | [] => some ([], c)
  | ch :: behind =>
      if isBlank ch || isBreak ch then some ([], c)
      else if flow && ch = ':' && behind.head?.any fun n => isFlowIndicator n || n = '?' then none
      else if ch = ':' && isGapAt behind then some ([], c)
      else if flow && isFlowIndicator ch then some ([], c)
      else (plainChunk? flow c.next).map fun (more, c') => (ch :: more, c')
termination_by c.rest.length
decreasing_by simp [Cursor.rest_next, *]

/-- The text of a plain scalar, and whether line breaks lie between it and the cursor. Outside flow
collections its lines are indented at least to `indent`. -/
def plain? (flow : Bool) (indent : Nat) :
    (fuel : Nat) → Cursor → Option (List Char × Bool × Cursor)
  | 0, c => some ([], false, c)
  | fuel + 1, c => do
      let (chunk, behind) ← plainChunk? flow c
      let (gap, c') ← Gap.read? indent {} behind
      if gap.isEmpty then return (chunk, false, behind)
      let broken := !gap.breaks.isEmpty
      if (!flow && c'.column < indent) || c'.isDocumentStart || c'.isDocumentEnd ||
          c'.rest.head? = some '#' then
        return (chunk, broken, c')
      let (more, brokenBehind, c'') ← plain? flow indent fuel c'
      if more.isEmpty then return (chunk, broken, c'')
      return (chunk ++ gap.fold ++ more, brokenBehind, c'')

/-! ## Quoted scalars -/

inductive Quote where
  | single
  | double
deriving DecidableEq

def Quote.char : Quote → Char
  | .single => '\''
  | .double => '"'

/-- What a single character behind a backslash stands for. -/
def simpleEscape? (c : Char) : Option Char :=
  [('0', '\x00'), ('a', '\x07'), ('b', '\x08'), ('t', '\t'), ('\t', '\t'), ('n', '\n'),
    ('v', '\x0b'), ('f', '\x0c'), ('r', '\r'), ('e', '\x1b'), (' ', ' '), ('"', '"'), ('/', '/'),
    ('\\', '\\'), ('N', '\u0085'), ('_', '\u00a0'), ('L', '\u2028'), ('P', '\u2029')].lookup c

/-- How many hexadecimal digits follow the character behind a backslash. -/
def escapeDigits? (c : Char) : Option Nat := [('x', 2), ('u', 4), ('U', 8)].lookup c

/-- The character that hexadecimal digits stand for; half of a pair is none. -/
def codePoint? (digits : List Char) : Option Char := do
  let n ← Hex.value? digits
  if n.isValidChar then some (Char.ofNat n) else none

/-- What follows a backslash in double quotes, if it is no break. -/
def escape? (c : Cursor) : Option (Char × Cursor) := do
  let ch ← c.rest.head?
  match simpleEscape? ch with
  | some e => return (e, c.next)
  | none =>
      let n ← escapeDigits? ch
      let digits := c.next.rest.take n
      if digits.length < n then none
      return (← codePoint? digits, c.next.skip n)

/-- A part of a quoted scalar without gaps, and whether an escaped break ends it. -/
def quotedChunk? (q : Quote) : (fuel : Nat) → Cursor → Option (List Char × Bool × Cursor)
  | 0, c => some ([], false, c)
  | fuel + 1, c =>
      let more (ch : Char) (c' : Cursor) := do
        let (chunk, escaped, c'') ← quotedChunk? q fuel c'
        return (ch :: chunk, escaped, c'')
      if isGapAt c.rest then some ([], false, c)
      else
        match q, c.rest with
        | .single, '\'' :: '\'' :: _ => more '\'' (c.skip 2)
        | .double, '\\' :: behind =>
            if behind.head?.any isBreak then some ([], true, c.skip 2)
            else do
              let (ch, c') ← escape? c.next
              more ch c'
        | _, ch :: _ => if ch = q.char then some ([], false, c) else more ch c.next
        | _, [] => some ([], false, c)

/-- The text of a quoted scalar, from behind the opening quote. No marker of a document interrupts
it. -/
def quoted? (q : Quote) : (fuel : Nat) → Cursor → Option (List Char × Cursor)
  | 0, _ => none
  | fuel + 1, c => do
      if c.rest.isEmpty || c.isDocumentStart || c.isDocumentEnd then none
      let (chunk, escaped, c') ← quotedChunk? q (c.rest.length + 1) c
      if c'.rest.head? = some q.char then return (chunk, c'.next)
      let (gap, c'') ← Gap.read? 0 {} c'
      let (more, last) ← quoted? q fuel c''
      return (chunk ++ (if escaped then gap.breaks else gap.fold) ++ more, last)

end MbsClient.Yaml
