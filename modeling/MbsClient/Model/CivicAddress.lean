import MbsClient.Codec.Constant
import MbsClient.Patch.Record

/-!
# Civic addresses — texts under the address elements of RFC 4776 (TS 29.572)
-/

namespace MbsClient

/-- The elements of an address, in the order in which differences are reported. -/
inductive CivicElement where
  | country | a1 | a2 | a3 | a4 | a5 | a6 | prd | pod | sts | hno | hns | lmk | loc | nam | pc | bld
  | unit | flr | room | plc | pcn | pobox | addcode | seat | rd | rdsec | rdbr | rdsubbr | prm | pom
  | usageRules | method | providedBy
deriving DecidableEq, Repr

namespace CivicElement

def all : List CivicElement :=
  [country, a1, a2, a3, a4, a5, a6, prd, pod, sts, hno, hns, lmk, loc, nam, pc, bld, unit, flr,
    room, plc, pcn, pobox, addcode, seat, rd, rdsec, rdbr, rdsubbr, prm, pom, usageRules, method,
    providedBy]

/-- The name of the member that holds the element. -/
def name : CivicElement → String
  | country => "country"
  | a1 => "A1"
  | a2 => "A2"
  | a3 => "A3"
  | a4 => "A4"
  | a5 => "A5"
  | a6 => "A6"
  | prd => "PRD"
  | pod => "POD"
  | sts => "STS"
  | hno => "HNO"
  | hns => "HNS"
  | lmk => "LMK"
  | loc => "LOC"
  | nam => "NAM"
  | pc => "PC"
  | bld => "BLD"
  | unit => "UNIT"
  | flr => "FLR"
  | room => "ROOM"
  | plc => "PLC"
  | pcn => "PCN"
  | pobox => "POBOX"
  | addcode => "ADDCODE"
  | seat => "SEAT"
  | rd => "RD"
  | rdsec => "RDSEC"
  | rdbr => "RDBR"
  | rdsubbr => "RDSUBBR"
  | prm => "PRM"
  | pom => "POM"
  | usageRules => "usageRules"
  | method => "method"
  | providedBy => "providedBy"

instance : KeyOrder CivicElement :=
  .comap CivicElement.ctorIdx fun a b h => by
    rw [← CivicElement.ofNat_ctorIdx a, h, CivicElement.ofNat_ctorIdx]

theorem mem_all (e : CivicElement) : e ∈ all := by cases e <;> decide

end CivicElement

/-- An address: some of the elements, each with a text. -/
structure CivicAddress where
  elements : SortedMap CivicElement String := .empty
deriving DecidableEq, Inhabited

namespace CivicAddress

def get? (a : CivicAddress) (e : CivicElement) : Option String := a.elements.get? e

/-- Addresses are ordered by their texts, the first element in which they differ deciding. An address
without the element comes first. -/
instance : KeyOrder CivicAddress :=
  .comap (fun a => CivicElement.all.map fun e => (a.get? e).toList) fun a b h => by
    have hget : ∀ e, a.get? e = b.get? e := by
      intro e
      have htexts : (a.get? e).toList = (b.get? e).toList := List.map_inj_left.1 h e e.mem_all
      simpa using congrArg List.head? htexts
    exact congrArg mk (SortedMap.ext_get? hget)

instance : Record CivicAddress := ⟨CivicElement.all.map fun e => .optional e.name (·.get? e)⟩

instance : Decode CivicAddress where
  decode d := do
    let fields ← Fields.read (CivicElement.all.map CivicElement.name) d
    let texts ← CivicElement.all.mapM fun e => do
      let text : Option String ← fields.optional e.name
      return text.map (e, ·)
    return ⟨.ofList (texts.filterMap id)⟩

end CivicAddress

end MbsClient
