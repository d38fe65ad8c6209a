import MbsClient.Text.Split

/-!
# Pointers — paths into a document as text

A pointer is written as RFC 6901 lays down, with one difference: `/` alone is the whole resource.
It is also what the single empty segment is written as; every other path has a text of its own.
-/

namespace MbsClient.Patch

/-- The segment behind the last entry of a list. -/
def behindLast : String := "-"

namespace Pointer

/-- `~` becomes `~0` and `/` becomes `~1`. -/
def escapeChar (c : Char) : List Char :=
  if c = '~' then ['~', '0'] else if c = '/' then ['~', '1'] else [c]

def escape (segment : String) : String := String.ofList (segment.toList.flatMap escapeChar)

/-- The text of a path; no segments are the whole resource. -/
def text (path : List String) : String :=
  match path with
  | [] => "/"
  | _ => String.ofList (path.flatMap fun segment => '/' :: segment.toList.flatMap escapeChar)

/-- Takes `~1` for `/` and `~0` for `~`; a `~` stands nowhere else. -/
def unescape? : List Char → Option (List Char)
  | [] => some []
  | '~' :: '1' :: rest => (unescape? rest).map ('/' :: ·)
  | '~' :: '0' :: rest => (unescape? rest).map ('~' :: ·)
  | c :: rest => if c = '~' then none else (unescape? rest).map (c :: ·)

/-- The segments that a text has between its slashes. -/
def segments? (text : String) : Option (List String) :=
  match text.toList with
  | '/' :: cs => (cs.splitOn '/').mapM fun part => (unescape? part).map String.ofList
  | _ => none

/-- The path that a pointer names. -/
def parse? (text : String) : Option (List String) :=
  if text = "/" then some [] else segments? text

end Pointer

end MbsClient.Patch
