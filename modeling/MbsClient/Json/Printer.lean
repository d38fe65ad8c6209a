import MbsClient.Json.Value
import MbsClient.Number.Shortest
import MbsClient.Text.Hex

/-!
# JSON text

`compact` puts nothing between the parts; `indented` puts every item and member on a line of its
own, two spaces deeper than what holds it.
-/

namespace MbsClient.Json

open Text

/-- A character inside quotes. Control characters have short escapes where JSON has them. -/
def escapeChar (c : Char) : List Char :=
  if c = '"' then ['\\', '"']
  else if c = '\\' then ['\\', '\\']
  else if c = '\n' then ['\\', 'n']
  else if c = '\r' then ['\\', 'r']
  else if c = '\t' then ['\\', 't']
  else if c.toNat = 8 then ['\\', 'b']
  else if c.toNat = 12 then ['\\', 'f']
  else if c.toNat < 32 then
    ['\\', 'u', '0', '0', Hex.lowerDigit (c.toNat / 16), Hex.lowerDigit (c.toNat % 16)]
  else [c]

def quoted (s : String) : List Char := '"' :: s.toList.flatMap escapeChar ++ ['"']

/-- The text of a value that is neither array nor object. -/
def leaf : Json → List Char
  | .bool true => "true".toList
  | .bool false => "false".toList
  | .int n => Decimal.ofInt n
  | .float x => (x.text?).getD "null".toList
  | .string s => quoted s
  | _ => "null".toList

mutual
def compactChars : Json → List Char
  | .array [] => ['[', ']']
  | .array (v :: rest) => '[' :: compactChars v ++ compactItems rest
  | .object [] => ['\x7b', '\x7d']
  | .object ((name, v) :: rest) =>
      '\x7b' :: quoted name ++ ':' :: compactChars v ++ compactMembers rest
  | v => leaf v

def compactItems : List Json → List Char
  | [] => [']']
  | v :: rest => ',' :: compactChars v ++ compactItems rest

def compactMembers : List (String × Json) → List Char
  | [] => ['\x7d']
  | (name, v) :: rest => ',' :: quoted name ++ ':' :: compactChars v ++ compactMembers rest
end

def compact (v : Json) : String := String.ofList (compactChars v)

/-- A new line at the given depth. -/
def newline (depth : Nat) : List Char := '\n' :: List.replicate (2 * depth) ' '

mutual
def indentedChars (depth : Nat) : Json → List Char
  | .array [] => ['[', ']']
  | .array (v :: rest) =>
      '[' :: newline (depth + 1) ++ indentedChars (depth + 1) v ++ indentedItems depth rest
  | .object [] => ['\x7b', '\x7d']
  | .object ((name, v) :: rest) =>
      '\x7b' :: newline (depth + 1) ++ quoted name ++ ':' :: ' ' ::
        indentedChars (depth + 1) v ++ indentedMembers depth rest
  | v => leaf v

def indentedItems (depth : Nat) : List Json → List Char
  | [] => newline depth ++ [']']
  | v :: rest =>
      ',' :: newline (depth + 1) ++ indentedChars (depth + 1) v ++ indentedItems depth rest

def indentedMembers (depth : Nat) : List (String × Json) → List Char
  | [] => newline depth ++ ['\x7d']
  | (name, v) :: rest =>
      ',' :: newline (depth + 1) ++ quoted name ++ ':' :: ' ' ::
        indentedChars (depth + 1) v ++ indentedMembers depth rest
end

def indented (v : Json) : String := String.ofList (indentedChars 0 v)

end MbsClient.Json
