import MbsClient.Model.CivicAddress
import MbsClient.Model.GeographicArea
import MbsClient.Model.Identifier
import MbsClient.Model.Identity

/-!
# Service areas — by cells and tracking areas, or by addresses and shapes (TS 29.571)
-/

namespace MbsClient

/-- A tracking area. -/
structure Tai where
  plmnId : PlmnId
  tac : Tac
  nid : Option Nid
deriving DecidableEq, Repr

namespace Tai

instance : Record Tai := ⟨[.always "plmnId" plmnId, .always "tac" tac, .optional "nid" nid]⟩

instance : Decode Tai where
  decode d := do
    let fields ← Fields.read ["plmnId", "tac", "nid"] d
    let nid ← fields.optional "nid"
    let plmnId ← fields.member? "plmnId"
    let tac ← fields.member? "tac"
    return { plmnId := ← needed plmnId, tac := ← needed tac, nid }

end Tai

/-- An NR cell. -/
structure Ncgi where
  plmnId : PlmnId
  nrCellId : NrCellId
  nid : Option Nid
deriving DecidableEq, Repr

namespace Ncgi

instance : Record Ncgi :=
  ⟨[.always "plmnId" plmnId, .always "nrCellId" nrCellId, .optional "nid" nid]⟩

instance : Decode Ncgi where
  decode d := do
    let fields ← Fields.read ["plmnId", "nrCellId", "nid"] d
    let nid ← fields.optional "nid"
    let nrCellId ← fields.member? "nrCellId"
    let plmnId ← fields.member? "plmnId"
    return { plmnId := ← needed plmnId, nrCellId := ← needed nrCellId, nid }

end Ncgi

/-- Cells of one tracking area. -/
structure NcgiTai where
  tai : Tai
  cellList : List Ncgi
deriving DecidableEq, Repr

namespace NcgiTai

instance : Record NcgiTai := ⟨[.always "tai" tai, .always "cellList" cellList]⟩

instance : Decode NcgiTai where
  decode d := do
    let fields ← Fields.read ["tai", "cellList"] d
    let cellList ← fields.member? "cellList"
    let tai ← fields.member? "tai"
    return { tai := ← needed tai, cellList := ← needed cellList }

end NcgiTai

/-- An area of cells and tracking areas. -/
structure MbsServiceArea where
  ncgiList : List NcgiTai := []
  taiList : List Tai := []
deriving DecidableEq, Repr, Inhabited

namespace MbsServiceArea

def isEmpty (a : MbsServiceArea) : Bool := a.ncgiList.isEmpty && a.taiList.isEmpty

instance : Record MbsServiceArea := ⟨[.sequence "ncgiList" ncgiList, .sequence "taiList" taiList]⟩

instance : Decode MbsServiceArea where
  decode d := do
    let fields ← Fields.read ["ncgiList", "taiList"] d
    let ncgiList ← fields.member? "ncgiList"
    let taiList ← fields.member? "taiList"
    return { ncgiList := ncgiList.getD [], taiList := taiList.getD [] }

end MbsServiceArea

/-- Equality that ignores order and counts repetitions: once sorted, the lists are equal. -/
def sameMultiset {α : Type} [KeyOrder α] (a b : List α) : Bool :=
  a.length == b.length && a.mergeSort KeyOrder.le == b.mergeSort KeyOrder.le

/-- An area of civic addresses and shapes. -/
structure ExtMbsServiceArea where
  civicAddressList : List CivicAddress := []
  geographicAreaList : List GeographicArea := []
deriving DecidableEq, Inhabited

namespace ExtMbsServiceArea

def isEmpty (a : ExtMbsServiceArea) : Bool :=
  a.civicAddressList.isEmpty && a.geographicAreaList.isEmpty

/-- The order of the civic addresses does not count; differences are still found by position. -/
instance : BEq ExtMbsServiceArea where
  beq a b :=
    sameMultiset a.civicAddressList b.civicAddressList &&
      a.geographicAreaList == b.geographicAreaList

instance : Record ExtMbsServiceArea :=
  ⟨[.sequence "civicAddressList" civicAddressList,
    .sequence "geographicAreaList" geographicAreaList]⟩

instance : Decode ExtMbsServiceArea where
  decode d := do
    let fields ← Fields.read ["civicAddressList", "geographicAreaList"] d
    let civicAddressList ← fields.member? "civicAddressList"
    let geographicAreaList ← fields.member? "geographicAreaList"
    return { civicAddressList := civicAddressList.getD [],
             geographicAreaList := geographicAreaList.getD [] }

end ExtMbsServiceArea

end MbsClient
