import MbsClient.Json.Value
import MbsClient.Text.Decimal

/-!
# Numbers of JSON text

A number without fraction and exponent is an integer as far as 64 bits hold it. Any other is a
double, found in steps that each round: the leading digits, as many as 64 bits hold, become a
double, which is then multiplied with or divided by a power of ten. So a number of many digits need
not become the double that is nearest to it.
-/

namespace MbsClient.Json

open Number Text

/-- A value and the text behind it. -/
abbrev Parsed (α : Type) := Option (α × List Char)

/-! ## The parts -/

/-- An unsigned integer part: a lone 0, or digits that start with another. -/
def integerPart (cs : List Char) : Parsed (List Char) :=
  let ds := cs.takeWhile Char.isDigit
  let rest := cs.dropWhile Char.isDigit
  match ds with
  | [] => none
  | ['0'] => some (ds, rest)
  | '0' :: _ => none
  | _ => some (ds, rest)

/-- A fraction, if the text has one: its digits. -/
def fractionPart : List Char → Parsed (List Char)
  | '.' :: rest =>
      match rest.takeWhile Char.isDigit with
      | [] => none
      | ds => some (ds, rest.dropWhile Char.isDigit)
  | cs => some ([], cs)

/-- An exponent, if the text has one. -/
def exponentPart : List Char → Parsed (Option Int)
  | c :: rest =>
      if c = 'e' ∨ c = 'E' then
        let (negative, rest) := match rest with
          | '-' :: r => (true, r)
          | '+' :: r => (false, r)
          | r => (false, r)
        match rest.takeWhile Char.isDigit with
        | [] => none
        | ds =>
            let n : Int := Decimal.value ds
            some (some (if negative then -n else n), rest.dropWhile Char.isDigit)
      else some (none, c :: rest)
  | [] => some (none, [])

/-! ## The double of the parts -/

/-- `n` followed by as many of the digits as 64 bits hold, and how many are left out. -/
def appendDigits (n : Nat) : List Char → Nat × Nat
  | [] => (n, 0)
  | d :: ds =>
      let next := Decimal.value [d] + 10 * n
      if next < UInt64.size then appendDigits next ds else (n, (d :: ds).length)

/-- The largest power of ten that is a double. -/
def maxPower : Nat := 308

/-- The power of ten as a double, in the form of a quotient. -/
def powerOfTen (k : Nat) : Nat × Nat := (Double.ofDecimal false 1 k).quotient

/-- A double divided by a power of ten, in steps of the largest power that is a double. -/
def dividedBy (x : Double) (k : Nat) : Double :=
  if x.quotient.1 = 0 then x
  else if k ≤ maxPower then x.scale (powerOfTen k).2 (powerOfTen k).1
  else dividedBy (x.scale (powerOfTen maxPower).2 (powerOfTen maxPower).1) (k - maxPower)
termination_by k
decreasing_by simp only [maxPower] at *; omega

/-- `digits · 10^exponent`; past the largest power all but zero is infinite. -/
def scaled (digits : Nat) (exponent : Int) : Double :=
  let x := Double.ofInt digits
  if exponent < 0 then dividedBy x (-exponent).toNat
  else if exponent ≤ maxPower then
    x.scale (powerOfTen exponent.toNat).1 (powerOfTen exponent.toNat).2
  else if digits = 0 then x
  else .infinite false

/-- The double of a number's parts; it must be finite. -/
def floatOf (negative : Bool) (whole fraction : List Char) (exponent : Int) : Option Json :=
  let (n, cut) := appendDigits 0 whole
  let (m, dropped) := appendDigits n fraction
  let x := scaled m (exponent + cut - (fraction.length - dropped : Nat))
  if x.isFinite then some (.float (if negative then x.negated else x)) else none

/-- The value of a number's parts. Integers of at most 64 bits stay integers; the integer `-0` and
all others are doubles. -/
def numberOf (negative : Bool) (whole fraction : List Char) (exponent : Option Int) : Option Json :=
  match fraction, exponent with
  | [], none =>
      let n := Decimal.value whole
      if negative then
        if n = 0 ∨ -n < Int64.minValue.toInt then floatOf true whole [] 0 else some (.int (-n))
      else if n < UInt64.size then some (.int n)
      else floatOf false whole [] 0
  | _, _ => floatOf negative whole fraction (exponent.getD 0)

/-- A number; it has no value if that is out of range. -/
def number (cs : List Char) : Parsed (Option Json) :=
  let (negative, cs) := match cs with
    | '-' :: r => (true, r)
    | r => (false, r)
  match integerPart cs with
  | none => none
  | some (whole, cs) =>
      match fractionPart cs with
      | none => none
      | some (fraction, cs) =>
          (exponentPart cs).map fun (exponent, cs) =>
            (numberOf negative whole fraction exponent, cs)

end MbsClient.Json
