import MbsClient.Text.Decimal
import MbsClient.Text.Hex
import MbsClient.Text.Split

/-!
# IP addresses and their texts

An IPv4 text is four octets without leading zeros. An IPv6 text is read in every form of RFC 4291
and written as RFC 5952 lays down: lower case, the first of the longest runs of at least two zero
groups as `::`, an IPv4-mapped address with a dotted end.
-/

namespace MbsClient.Net

open Text

structure Ipv4 where
  a : UInt8
  b : UInt8
  c : UInt8
  d : UInt8
deriving DecidableEq, Repr

/-- Eight groups of 16 bits. -/
structure Ipv6 where
  groups : List UInt16
  length_groups : groups.length = 8
deriving DecidableEq, Repr

inductive Address where
  | v4 (ip : Ipv4)
  | v6 (ip : Ipv6)
deriving DecidableEq, Repr

/-! ## IPv4 -/

namespace Ipv4

/-- An octet: at most three digits, no leading zero, at most 255. -/
def octet? (cs : List Char) : Option UInt8 :=
  if 3 < cs.length then none
  else match Decimal.plain? cs with
    | some n => if n < 256 then some (UInt8.ofNat n) else none
    | none => none

def ofChars? (cs : List Char) : Option Ipv4 :=
  match cs.splitOn '.' with
  | [a, b, c, d] => do return ⟨← octet? a, ← octet? b, ← octet? c, ← octet? d⟩
  | _ => none

def parse? (s : String) : Option Ipv4 := ofChars? s.toList

def chars (ip : Ipv4) : List Char :=
  Decimal.digits ip.a.toNat ++ '.' :: Decimal.digits ip.b.toNat ++ '.' ::
    Decimal.digits ip.c.toNat ++ '.' :: Decimal.digits ip.d.toNat

def text (ip : Ipv4) : String := String.ofList ip.chars

/-- 224.0.0.0/4 -/
def isMulticast (ip : Ipv4) : Bool := 224 ≤ ip.a.toNat && ip.a.toNat < 240

/-- The two groups that an IPv6 address holds for it. -/
def groups (ip : Ipv4) : List UInt16 :=
  [ip.a.toUInt16 * 256 + ip.b.toUInt16, ip.c.toUInt16 * 256 + ip.d.toUInt16]

def ofGroups (high low : UInt16) : Ipv4 :=
  ⟨(high / 256).toUInt8, high.toUInt8, (low / 256).toUInt8, low.toUInt8⟩

end Ipv4

/-! ## IPv6 -/

namespace Ipv6

/-- A group: one to four hexadecimal digits. -/
def group? (cs : List Char) : Option UInt16 :=
  if cs.isEmpty || 4 < cs.length then none else (Hex.value? cs).map UInt16.ofNat

/-- Groups between colons; the last part may be an IPv4 address where `dotted` allows it. -/
def groupList? (dotted : Bool) : List (List Char) → Option (List UInt16)
  | [] => some []
  | [part] =>
      match group? part with
      | some g => some [g]
      | none => if dotted then (Ipv4.ofChars? part).map Ipv4.groups else none
  | part :: rest => do return (← group? part) :: (← groupList? dotted rest)

/-- The groups of one side of `::`, which may be empty. -/
def side? (dotted : Bool) (cs : List Char) : Option (List UInt16) :=
  if cs.isEmpty then some [] else groupList? dotted (cs.splitOn ':')

/-- The text before the first `::` and the text after it. -/
def splitGap : List Char → Option (List Char × List Char)
  | ':' :: ':' :: rest => some ([], rest)
  | c :: rest => (splitGap rest).map fun (before, behind) => (c :: before, behind)
  | [] => none

def ofGroups? (groups : List UInt16) : Option Ipv6 :=
  if h : groups.length = 8 then some ⟨groups, h⟩ else none

/-- `::` stands for at least one group. -/
def ofChars? (cs : List Char) : Option Ipv6 :=
  match splitGap cs with
  | none => do ofGroups? (← groupList? true (cs.splitOn ':'))
  | some (before, behind) => do
      let head ← side? false before
      let tail ← side? true behind
      let given := head.length + tail.length
      if given < 8 then ofGroups? (head ++ List.replicate (8 - given) 0 ++ tail) else none

def parse? (s : String) : Option Ipv6 := ofChars? s.toList

/-- How many zero groups a list starts with. -/
def zeroRun (groups : List UInt16) : Nat := (groups.takeWhile (· == 0)).length

/-- Where the first longest run of zero groups starts, and its length. -/
def longestZeroRun (groups : List UInt16) : Nat × Nat :=
  (List.range groups.length).foldl
    (fun best i =>
      let run := zeroRun (groups.drop i)
      if best.2 < run then (i, run) else best)
    (0, 0)

def joinGroups : List UInt16 → List Char
  | [] => []
  | [g] => Hex.lower g.toNat
  | g :: rest => Hex.lower g.toNat ++ ':' :: joinGroups rest

def chars (ip : Ipv6) : List Char :=
  match ip.groups with
  | [0, 0, 0, 0, 0, 0xffff, high, low] => "::ffff:".toList ++ (Ipv4.ofGroups high low).chars
  | groups =>
      let (start, length) := longestZeroRun groups
      if length < 2 then joinGroups groups
      else
        joinGroups (groups.take start) ++ ':' :: ':' :: joinGroups (groups.drop (start + length))

def text (ip : Ipv6) : String := String.ofList ip.chars

/-- ff00::/8 -/
def isMulticast (ip : Ipv6) : Bool :=
  match ip.groups with
  | g :: _ => g.toNat / 256 == 0xff
  | [] => false

end Ipv6

/-! ## Either family -/

namespace Address

def parse? (s : String) : Option Address :=
  match Ipv4.parse? s with
  | some ip => some (.v4 ip)
  | none => (Ipv6.parse? s).map .v6

def text : Address → String
  | .v4 ip => ip.text
  | .v6 ip => ip.text

def isV6 : Address → Bool
  | .v4 _ => false
  | .v6 _ => true

def isMulticast : Address → Bool
  | .v4 ip => ip.isMulticast
  | .v6 ip => ip.isMulticast

end Address

end MbsClient.Net
