import MbsClient.Json.Number
import MbsClient.Json.Outline
import MbsClient.Text.Hex

/-!
# Reading JSON text

The grammar of RFC 8259. Every function takes the rest of the text and gives back what it leaves.
Strings, arrays and objects recurse with fuel. Twice the length of the text is enough, because
every step takes a character.
-/

namespace MbsClient.Json

open Text

def isSpace (c : Char) : Bool := c == ' ' || c == '\n' || c == '\t' || c == '\r'

def skipSpace (cs : List Char) : List Char := cs.dropWhile isSpace

/-! ## Strings -/

/-- Four hexadecimal digits. -/
def hex4 : List Char → Parsed Nat
  | a :: b :: c :: d :: rest => (Hex.value? [a, b, c, d]).map (·, rest)
  | _ => none

/-- What follows `\u`: one code point, or two units that make one. A unit of a pair that stands
alone is no character. -/
def unicodeEscape (cs : List Char) : Parsed (Option Char) :=
  match hex4 cs with
  | none => none
  | some (high, rest) =>
      if 0xD800 ≤ high ∧ high < 0xDC00 then
        match rest with
        | '\\' :: 'u' :: rest' =>
            match hex4 rest' with
            | some (low, rest'') =>
                if 0xDC00 ≤ low ∧ low < 0xE000 then
                  some (Char.ofNat (0x10000 + (high - 0xD800) * 0x400 + (low - 0xDC00)), rest'')
                else some (none, rest)
            | none => some (none, rest)
        | _ => some (none, rest)
      else if 0xDC00 ≤ high ∧ high < 0xE000 then some (none, rest)
      else some (Char.ofNat high, rest)

/-- What follows a backslash. -/
def escape : List Char → Parsed (Option Char)
  | '"' :: rest => some ('"', rest)
  | '\\' :: rest => some ('\\', rest)
  | '/' :: rest => some ('/', rest)
  | 'b' :: rest => some (Char.ofNat 8, rest)
  | 'f' :: rest => some (Char.ofNat 12, rest)
  | 'n' :: rest => some ('\n', rest)
  | 'r' :: rest => some ('\r', rest)
  | 't' :: rest => some ('\t', rest)
  | 'u' :: rest => unicodeEscape rest
  | _ => none

/-- The rest of a string behind its opening quote; `acc` holds its characters in reverse, as long as
all of them are characters. -/
def stringBody : (fuel : Nat) → (acc : Option (List Char)) → (escaped : Bool) → List Char →
    Parsed Name
  | 0, _, _, _ => none
  | _ + 1, _, _, [] => none
  | fuel + 1, acc, escaped, c :: rest =>
      if c = '"' then some (⟨acc.map fun cs => String.ofList cs.reverse, escaped⟩, rest)
      else if c = '\\' then
        match escape rest with
        | some (e, rest') => stringBody fuel (do return (← e) :: (← acc)) true rest'
        | none => none
      else if c.toNat < 32 then none
      else stringBody fuel (acc.map (c :: ·)) escaped rest

/-! ## Values -/

/-- A collection that is read lies in fewer others than this. -/
def maxDepth : Nat := 127

/-- A scalar, if it has a value. -/
def Outline.ofScalar (v : Option Json) : Outline := v.elim .unreadable .scalar

/-- A collection inside so many others that it leaves `levels`. -/
def Outline.ofCollection (levels : Nat) (v : Outline) : Outline :=
  if levels = 0 then .unreadable else v

mutual
/-- One value; collections may be nested `levels` deep. -/
def value : (fuel : Nat) → (levels : Nat) → List Char → Parsed Outline
  | 0, _, _ => none
  | fuel + 1, levels, cs =>
      match skipSpace cs with
      | [] => none
      | c :: rest =>
          if c = '"' then
            (stringBody fuel (some []) false rest).map fun (s, r) =>
              (.ofScalar (s.text?.map .string), r)
          else if c = '[' then
            match skipSpace rest with
            | ']' :: r => some (.ofCollection levels (.array []), r)
            | r => items fuel levels [] r
          else if c = '\x7b' then
            match skipSpace rest with
            | '\x7d' :: r => some (.ofCollection levels (.object []), r)
            | r => members fuel levels [] r
          else if c = '-' ∨ c.isDigit then
            (number (c :: rest)).map fun (v, r) => (.ofScalar v, r)
          else
            match c, rest with
            | 'n', 'u' :: 'l' :: 'l' :: r => some (.scalar .null, r)
            | 't', 'r' :: 'u' :: 'e' :: r => some (.scalar (.bool true), r)
            | 'f', 'a' :: 'l' :: 's' :: 'e' :: r => some (.scalar (.bool false), r)
            | _, _ => none

/-- The items of an array up to its end; `acc` holds those read so far in reverse. -/
def items : (fuel : Nat) → (levels : Nat) → List Outline → List Char → Parsed Outline
  | 0, _, _, _ => none
  | fuel + 1, levels, acc, cs =>
      match value fuel (levels - 1) cs with
      | none => none
      | some (v, rest) =>
          match skipSpace rest with
          | ',' :: r => items fuel levels (v :: acc) r
          | ']' :: r => some (.ofCollection levels (.array (v :: acc).reverse), r)
          | _ => none

/-- The members of an object up to its end; `acc` holds those read so far in reverse. -/
def members : (fuel : Nat) → (levels : Nat) → List (Name × Outline) → List Char → Parsed Outline
  | 0, _, _, _ => none
  | fuel + 1, levels, acc, cs =>
      match skipSpace cs with
      | '"' :: rest =>
          match stringBody fuel (some []) false rest with
          | none => none
          | some (name, rest) =>
              match skipSpace rest with
              | ':' :: rest =>
                  match value fuel (levels - 1) rest with
                  | none => none
                  | some (v, rest) =>
                      match skipSpace rest with
                      | ',' :: r => members fuel levels ((name, v) :: acc) r
                      | '\x7d' :: r =>
                          some (.ofCollection levels (.object ((name, v) :: acc).reverse), r)
                      | _ => none
              | _ => none
      | _ => none
end

/-- The one value that a text holds, taken apart. -/
def outline? (text : String) : Option Outline :=
  let cs := text.toList
  match value (2 * cs.length + 2) maxDepth cs with
  | some (v, rest) => if (skipSpace rest).isEmpty then some v else none
  | none => none

/-- The one value that a text holds, read in full. -/
def parse? (text : String) : Option Json := (outline? text).bind Outline.value?

end MbsClient.Json
