/-!
# Cursors — a place in a YAML text, and the blanks and line breaks from there on

Indentation and the life of a key depend on where a character stands, so a place is the text that
is left together with line, column and index.
-/

namespace MbsClient.Yaml

/-- Characters that a text may hold. -/
def isPrintable (c : Char) : Bool :=
  let n := c.toNat
  n == 0x09 || n == 0x0A || n == 0x0D || (0x20 ≤ n && n ≤ 0x7E) || n == 0x85 ||
    (0xA0 ≤ n && n ≤ 0xD7FF) || (0xE000 ≤ n && n ≤ 0xFFFD) || 0x10000 ≤ n

/-- The text with one line feed for every way to end a line, except the two separators that are
kept as they are. -/
def unifyBreaks : List Char → List Char
  | '\r' :: '\n' :: rest => '\n' :: unifyBreaks rest
  | c :: rest => (if c = '\r' || c = '\u0085' then '\n' else c) :: unifyBreaks rest
  | [] => []

def isBreak (c : Char) : Bool := c = '\n' || c = '\u2028' || c = '\u2029'

def isBlank (c : Char) : Bool := c = ' ' || c = '\t'

/-- Blank, break or the end of the text. -/
def isGapAt (rest : List Char) : Bool :=
  match rest with
  | c :: _ => isBlank c || isBreak c
  | [] => true

structure Cursor where
  rest : List Char
  line : Nat := 0
  column : Nat := 0
  /-- How many bytes of UTF-8 lie before it. -/
  index : Nat := 0

namespace Cursor

/-- Goes on by one character, which may be a break. -/
def next (c : Cursor) : Cursor :=
  match c.rest with
  | ch :: rest =>
      if isBreak ch then ⟨rest, c.line + 1, 0, c.index + ch.utf8Size⟩
      else ⟨rest, c.line, c.column + 1, c.index + ch.utf8Size⟩
  | [] => c

theorem rest_next (c : Cursor) : c.next.rest = c.rest.tail := by
  unfold next
  cases h : c.rest with
  | nil => simp [h]
  | cons ch rest => by_cases hb : isBreak ch = true <;> simp [hb]

/-- Goes on by `n` characters. -/
def skip (n : Nat) (c : Cursor) : Cursor := n.repeat next c

/-- Whether a line starts here that is nothing but three times the given character, or has a gap
behind them. -/
def isMarker (mark : Char) (c : Cursor) : Bool :=
  match c.rest with
  | x :: y :: z :: rest => c.column = 0 && x = mark && y = mark && z = mark && isGapAt rest
  | _ => false

/-- Whether a line starts here with a byte order mark. -/
def isByteOrderMark (c : Cursor) : Bool := c.column = 0 && c.rest.head? = some '\uFEFF'

def isDocumentStart (c : Cursor) : Bool := c.isMarker '-'

def isDocumentEnd (c : Cursor) : Bool := c.isMarker '.'

/-- Goes to the end of the line. -/
def skipLine (c : Cursor) : Cursor :=
  match _ : c.rest with
  | ch :: _ => if isBreak ch then c else skipLine c.next
  | [] => c
termination_by c.rest.length
decreasing_by simp [rest_next, *]

end Cursor

/-! ## Gaps -/

/-- What lies between two parts of a scalar: blanks on one line, or line breaks. -/
structure Gap where
  blanks : List Char := []
  breaks : List Char := []

namespace Gap

def isEmpty (g : Gap) : Bool := g.blanks.isEmpty && g.breaks.isEmpty

/-- What a gap inside a scalar stands for: a single line feed is a space, and of several the first
one goes. -/
def fold (g : Gap) : List Char :=
  match g.breaks with
  | [] => g.blanks
  | ['\n'] => [' ']
  | '\n' :: more => more
  | breaks => breaks

/-- Reads on as far as blanks and breaks go. A tab does not indent a line to `indent`. -/
def read? (indent : Nat) (g : Gap) (c : Cursor) : Option (Gap × Cursor) :=
  match _ : c.rest with
  | [] => some (g, c)
  | ch :: _ =>
      if isBreak ch then read? indent { breaks := g.breaks ++ [ch] } c.next
      else if isBlank ch then
        if g.breaks.isEmpty then read? indent { g with blanks := g.blanks ++ [ch] } c.next
        else if ch = '\t' && c.column < indent then none
        else read? indent g c.next
      else some (g, c)
termination_by c.rest.length
decreasing_by all_goals simp [Cursor.rest_next, *]

end Gap

end MbsClient.Yaml
