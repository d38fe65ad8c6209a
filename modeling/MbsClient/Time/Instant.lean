import MbsClient.Text.Blank
import MbsClient.Text.Decimal
import MbsClient.Time.Calendar

/-!
# Instants — points in time and their RFC 3339 text

Reading is lenient: blanks around the numbers, one-digit fields, a blank or a small `t` before the
time, a small `z`, `UTC`, and an offset without colon are accepted. Writing is in UTC with the
fewest of no, 3, 6 or 9 fraction digits that are exact.
-/

namespace MbsClient.Time

open Text

namespace Instant

/-- The first and the last year that a date may have. -/
def firstYear : Int := -262143
def lastYear : Int := 262142

def inRange (d : Date) : Bool := firstYear ≤ d.year && d.year ≤ lastYear

end Instant

/-- Seconds since 1970-01-01T00:00:00Z, and nanoseconds on top of them. From `10^9` on the
nanoseconds lie in a leap second, which follows the second they are counted from: the last one of a
minute. -/
structure Instant where
  seconds : Int
  nanos : Nat
  in_range : Instant.inRange (Date.ofDays (seconds / 86400)) = true
  nanos_lt : nanos < 1000000000 ∨ nanos < 2000000000 ∧ seconds % 60 = 59
deriving DecidableEq, Repr

namespace Instant

/-! ## Reading -/

/-- One to `most` digits behind blanks. -/
def field? (most : Nat) (cs : List Char) : Option (Nat × List Char) :=
  let cs := trimStart cs
  let ds := (cs.take most).takeWhile Char.isDigit
  if ds.isEmpty then none else some (Decimal.value ds, cs.drop ds.length)

/-- A year: four digits at most, or a sign and any number of digits. -/
def year? (cs : List Char) : Option (Int × List Char) :=
  match trimStart cs with
  | '-' :: rest => do
      let (n, rest) ← signed rest
      return (-(n : Int), rest)
  | '+' :: rest => do
      let (n, rest) ← signed rest
      return ((n : Int), rest)
  | cs => do
      let (n, rest) ← field? 4 cs
      return ((n : Int), rest)
where
  signed (cs : List Char) : Option (Nat × List Char) :=
    let ds := cs.takeWhile Char.isDigit
    if ds.isEmpty then none else some (Decimal.value ds, cs.drop ds.length)

/-- A mark between fields, behind blanks. -/
def mark? (c : Char) (cs : List Char) : Option (List Char) :=
  match trimStart cs with
  | d :: rest => if d = c then some rest else none
  | [] => none

/-- What stands between a date and a time. -/
def timeMark? : List Char → Option (List Char)
  | c :: rest => if c = 'T' ∨ c = 't' ∨ c = ' ' then some rest else none
  | [] => none

/-- A fraction of a second in nanoseconds; digits after the ninth are cut. -/
def fraction? : List Char → Option (Nat × List Char)
  | '.' :: rest =>
      let ds := rest.takeWhile Char.isDigit
      if ds.isEmpty then none
      else
        let kept := ds.take 9
        some (Decimal.value kept * Nat.pow 10 (9 - kept.length), rest.drop ds.length)
  | cs => some (0, cs)

/-- An offset from UTC in minutes. -/
def offset? (cs : List Char) : Option (Int × List Char) :=
  match cs with
  | 'Z' :: rest => some (0, rest)
  | 'z' :: rest => some (0, rest)
  | '+' :: rest => hoursMinutes rest
  | '-' :: rest => do
      let (m, rest) ← hoursMinutes rest
      return (-m, rest)
  | '−' :: rest => do
      let (m, rest) ← hoursMinutes rest
      return (-m, rest)
  | a :: b :: c :: rest =>
      if [a, b, c].map Char.toUpper = ['U', 'T', 'C'] then some (0, rest) else none
  | _ => none
where
  hoursMinutes : List Char → Option (Int × List Char)
    | h :: h' :: rest =>
        if h.isDigit && h'.isDigit then
          match rest.dropWhile fun c => c = ':' || isBlank c with
          | m :: m' :: rest =>
              if '0' ≤ m && m ≤ '5' && m'.isDigit then
                some ((Decimal.value [h, h'] * 60 + Decimal.value [m, m'] : Nat), rest)
              else none
          | _ => none
        else none
    | _ => none

/-- The instant of a date, a time of day and an offset. Second 60 is a leap second. -/
def of? (date : Date) (hour minute second nanos : Nat) (offset : Int) : Option Instant :=
  let seconds :=
    date.toDays * 86400 + (hour * 3600 + minute * 60 + min second 59 : Nat) - offset * 60
  let leap := if second = 60 then 1000000000 else 0
  if h : date.isValid ∧ inRange date ∧ hour < 24 ∧ minute < 60 ∧ second ≤ 60 ∧
      nanos < 1000000000 ∧ -1440 < offset ∧ offset < 1440 ∧
      inRange (Date.ofDays (seconds / 86400)) then
    some ⟨seconds, nanos + leap, h.2.2.2.2.2.2.2.2, by
      have hnanos := h.2.2.2.2.2.1
      simp only [seconds, leap]
      split <;> omega⟩
  else none

def parse? (s : String) : Option Instant := do
  let (year, cs) ← year? s.toList
  let cs ← mark? '-' cs
  let (month, cs) ← field? 2 cs
  let cs ← mark? '-' cs
  let (day, cs) ← field? 2 cs
  let cs ← timeMark? cs
  let (hour, cs) ← field? 2 cs
  let cs ← mark? ':' cs
  let (minute, cs) ← field? 2 cs
  let cs ← mark? ':' cs
  let (second, cs) ← field? 2 cs
  let (nanos, cs) ← fraction? cs
  let (offset, cs) ← offset? (trimStart cs)
  if (trimStart cs).isEmpty then of? ⟨year, month, day⟩ hour minute second nanos offset else none

/-! ## Writing -/

/-- Four digits; years outside 0 to 9999 have a sign in front. -/
def yearChars (year : Int) : List Char :=
  if year < 0 then '-' :: Decimal.padded 4 year.natAbs
  else if 9999 < year then '+' :: Decimal.digits year.natAbs
  else Decimal.padded 4 year.natAbs

def fractionChars (nanos : Nat) : List Char :=
  if nanos = 0 then []
  else if nanos % 1000000 = 0 then '.' :: Decimal.padded 3 (nanos / 1000000)
  else if nanos % 1000 = 0 then '.' :: Decimal.padded 6 (nanos / 1000)
  else '.' :: Decimal.padded 9 nanos

def text (t : Instant) : String :=
  let date := Date.ofDays (t.seconds / 86400)
  let time := (t.seconds % 86400).toNat
  let second := time % 60 + t.nanos / 1000000000
  String.ofList <|
    yearChars date.year ++ '-' :: Decimal.padded 2 date.month ++ '-' :: Decimal.padded 2 date.day ++
      'T' :: Decimal.padded 2 (time / 3600) ++ ':' :: Decimal.padded 2 (time / 60 % 60) ++
      ':' :: Decimal.padded 2 second ++ fractionChars (t.nanos % 1000000000) ++ ['Z']

end Instant

end MbsClient.Time
