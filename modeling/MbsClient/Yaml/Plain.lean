import MbsClient.Number.Float
import MbsClient.Text.Decimal
import MbsClient.Text.Split

/-!
# Plain scalars — what unquoted text stands for

Null, the truth values and numbers have fixed spellings; any other plain scalar is a text. Only
JSON's `true` and `false` are truth values, with either or all letters in upper case.
-/

namespace MbsClient.Yaml.Plain

open Number Text

def isNull (text : String) : Bool := text ∈ ["", "~", "null", "Null", "NULL"]

def bool? (text : String) : Option Bool :=
  [("true", true), ("True", true), ("TRUE", true), ("false", false), ("False", false),
    ("FALSE", false)].lookup text

/-! ## Numbers -/

/-- The value of a digit in a base of at most 16. -/
def digit? (base : Nat) (c : Char) : Option Nat :=
  let n :=
    if '0' ≤ c ∧ c ≤ '9' then c.toNat - '0'.toNat
    else if 'a' ≤ c ∧ c ≤ 'f' then c.toNat - 'a'.toNat + 10
    else if 'A' ≤ c ∧ c ≤ 'F' then c.toNat - 'A'.toNat + 10
    else base
  if n < base then some n else none

/-- The number that digits in a base denote; there has to be a digit. -/
def value? (base : Nat) (cs : List Char) : Option Nat :=
  if cs.isEmpty then none else cs.foldlM (fun n c => (digit? base c).map (base * n + ·)) 0

/-- Digits in base 10 without a superfluous zero, or in base 16, 8 or 2 behind the mark of the
base. -/
def magnitude? : List Char → Option Nat
  | '0' :: 'x' :: cs => value? 16 cs
  | '0' :: 'o' :: cs => value? 8 cs
  | '0' :: 'b' :: cs => value? 2 cs
  | '0' :: _ :: _ => none
  | cs => value? 10 cs

/-- An integer without minus sign. -/
def nat? (text : String) : Option Nat :=
  match text.toList with
  | '+' :: cs => magnitude? cs
  | cs => magnitude? cs

def int? (text : String) : Option Int :=
  match text.toList with
  | '-' :: cs => (magnitude? cs).map fun n => -(n : Int)
  | _ => (nat? text).map Int.ofNat

/-- A sign and what follows it. -/
def splitSign : List Char → Bool × List Char
  | '-' :: cs => (true, cs)
  | '+' :: cs => (false, cs)
  | cs => (false, cs)

/-- The exponent behind the mark of one. -/
def exponent? (cs : List Char) : Option Int :=
  let (negative, digits) := splitSign cs
  (Decimal.value? digits).map fun n => if negative then -(n : Int) else n

/-- A decimal number: digits, of which some may follow a point, and maybe an exponent. -/
def decimal? (negative : Bool) (cs : List Char) : Option Double := do
  let whole := cs.takeWhile Char.isDigit
  let (fraction, rest) := match cs.dropWhile Char.isDigit with
    | '.' :: rest => (rest.takeWhile Char.isDigit, rest.dropWhile Char.isDigit)
    | rest => ([], rest)
  let digits ← Decimal.value? (whole ++ fraction)
  let exponent ← match rest with
    | [] => some 0
    | c :: rest => if c = 'e' || c = 'E' then exponent? rest else none
  let x := Double.ofDecimal negative digits (exponent - fraction.length)
  if x.isFinite then some x else none

/-- A number that need not be an integer. Zeros in front of digits alone make no number. -/
def float? (text : String) : Option Double :=
  let (negative, cs) := splitSign text.toList
  let spelled := String.ofList cs
  if spelled ∈ [".inf", ".Inf", ".INF"] then some (.infinite negative)
  else if text ∈ [".nan", ".NaN", ".NAN"] then some .nan
  else if cs.head? = some '0' && cs.length ≠ 1 && cs.all Char.isDigit then none
  else decimal? negative cs

end MbsClient.Yaml.Plain
