import MbsClient.Codec.Source
import MbsClient.Patch.Difference
import MbsClient.Text.Blank

/-!
# Bit rates — whole numbers of bits per second, written in decimal units

A rate is written in the largest unit that is not above it and needs at most three decimals. A text
may have any number of decimals; what lies below one bit per second is dropped, and what does not
fit in 64 bits is refused.
-/

namespace MbsClient

open Text

/-- The units of a bit rate and their bits per second, largest first. -/
def rateUnits : List (Nat × String) :=
  [(1000000000000, "Tbps"), (1000000000, "Gbps"), (1000000, "Mbps"), (1000, "Kbps"), (1, "bps")]

structure BitRate where
  bps : UInt64
deriving DecidableEq, Repr

namespace BitRate

/-- So many units, or the largest rate where that is more. -/
def saturating (scale count : Nat) : BitRate :=
  ⟨UInt64.ofNat (min (count * scale) (UInt64.size - 1))⟩

def kbps (count : Nat) : BitRate := saturating 1000 count
def mbps (count : Nat) : BitRate := saturating 1000000 count

/-- The weight of the last of three decimals in a unit. -/
def step (scale : Nat) : Nat := max (scale / 1000) 1

/-- Whether a rate is written in a unit. -/
def fits (bps scale : Nat) : Bool := scale ≤ bps && bps % step scale = 0

/-- A rate in one unit: the whole part, and the decimals without zeros at the end. -/
def inUnit (bps scale : Nat) (unit : String) : List Char :=
  let decimals := bps % scale / step scale
  let fraction :=
    if decimals = 0 then []
    else '.' :: ((Decimal.padded 3 decimals).reverse.dropWhile (· == '0')).reverse
  Decimal.digits (bps / scale) ++ fraction ++ ' ' :: unit.toList

def text (r : BitRate) : String :=
  let bps := r.bps.toNat
  match rateUnits.find? fun (scale, _) => fits bps scale with
  | some (scale, unit) => String.ofList (inUnit bps scale unit)
  | none => "0 bps"

/-- A number, if 64 bits hold it. -/
def word? (n : Nat) : Option UInt64 := if n < UInt64.size then some (UInt64.ofNat n) else none

/-- Decimals of a unit added to a rate, as long as 64 bits hold the sum; each digit counts a tenth
of the one before it, and a tenth of one bit per second counts nothing. -/
def addDecimals? : (bps : UInt64) → (place : Nat) → List Char → Option UInt64
  | bps, _, [] => some bps
  | bps, place, c :: rest =>
      if place / 10 = 0 then some bps
      else
        (word? (bps.toNat + (c.toNat - '0'.toNat) * (place / 10))).bind fun bps =>
          addDecimals? bps (place / 10) rest

/-- The bits per second of a whole number and decimals of a unit, if 64 bits hold them. -/
def ofParts? (scale : Nat) (whole decimals : List Char) : Option BitRate := do
  let count ← (Decimal.value? whole).bind word?
  let bps ← word? (count.toNat * scale)
  if decimals.all Char.isDigit then (addDecimals? bps scale decimals).map mk else none

/-- A number, one space and a unit, between blanks. -/
def ofChars? (cs : List Char) : Option BitRate := do
  let (number, unit) ← splitOnce ' ' (trim cs)
  let (scale, _) ← rateUnits.find? fun u => u.2.toList = unit
  let (whole, decimals) := (splitOnce '.' number).getD (number, [])
  ofParts? scale whole decimals

def parse (s : String) : Except ValueFault BitRate :=
  match ofChars? s.toList with
  | some r => .ok r
  | none => .error (.bitRate s)

instance : Encode BitRate := ⟨fun r => .string r.text⟩

instance : Decode BitRate where
  decode d := do
    let s : String ← decode d
    (parse s).mapError .value

instance : Diff BitRate := ⟨Diff.scalar⟩

end BitRate

end MbsClient
