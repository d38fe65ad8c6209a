import MbsClient.Model.Service
import MbsClient.Model.ServiceArea
import MbsClient.Time.Instant

/-!
# Session records — an MBS session as exchanged with the MB-SMF (TS 29.571)
-/

namespace MbsClient

open Time

instance : Encode Instant := ⟨fun t => .string t.text⟩

instance : Decode Instant where
  decode d := do
    let s : String ← decode d
    needed (Instant.parse? s)

instance : Diff Instant := ⟨Diff.scalar⟩

inductive MbsSessionType where
  | multicast | broadcast
deriving DecidableEq, Repr, Inhabited

instance : Constant MbsSessionType where
  all := [.multicast, .broadcast]
  name
    | .multicast => "MULTICAST"
    | .broadcast => "BROADCAST"

/-- The frequency selection areas of a broadcast session, in the order they were given. -/
structure FsaIdList where
  ids : List FsaId := []
deriving DecidableEq, Repr, Inhabited

namespace FsaIdList

def isEmpty (l : FsaIdList) : Bool := l.ids.isEmpty

/-- The order does not count. -/
instance : BEq FsaIdList := ⟨fun a b => sameMultiset a.ids b.ids⟩

instance : Encode FsaIdList := ⟨fun l => encode l.ids⟩

instance : Decode FsaIdList where
  decode d := do
    let ids : List FsaId ← decode d
    return ⟨ids⟩

end FsaIdList

structure MbsSession where
  mbsSessionId : MbsSessionId := {}
  /-- Asks the MB-SMF to allocate a TMGI. -/
  tmgiAllocReq : Bool := false
  serviceType : MbsSessionType := .multicast
  locationDependent : Bool := false
  areaSessionId : Option UInt16 := none
  ingressTunAddrReq : Bool := false
  mbsServiceArea : Option MbsServiceArea := none
  extMbsServiceArea : Option ExtMbsServiceArea := none
  mbsServInfo : Option MbsServiceInfo := none
  mbsFsaIdList : FsaIdList := {}
  associatedSessionId : Option String := none
  startTime : Option Instant := none
  terminationTime : Option Instant := none
deriving BEq, DecidableEq, Inhabited

namespace MbsSession

def ssm (s : MbsSession) : Option Ssm := s.mbsSessionId.ssm

def tmgi (s : MbsSession) : Option Tmgi := s.mbsSessionId.tmgi

def isBroadcast (s : MbsSession) : Bool := s.serviceType = .broadcast

instance : Record MbsSession :=
  ⟨[.always "mbsSessionId" mbsSessionId, .flag "tmgiAllocReq" tmgiAllocReq,
    .always "serviceType" serviceType, .flag "locationDependent" locationDependent,
    .optional "areaSessionId" areaSessionId, .flag "ingressTunAddrReq" ingressTunAddrReq,
    .optional "mbsServiceArea" mbsServiceArea, .optional "extMbsServiceArea" extMbsServiceArea,
    .optional "mbsServInfo" mbsServInfo, .sequence "mbsFsaIdList" (fun s => s.mbsFsaIdList.ids),
    .optional "associatedSessionId" associatedSessionId, .optional "startTime" startTime,
    .optional "terminationTime" terminationTime]⟩

instance : Decode MbsSession where
  decode d := do
    let fields ← Fields.read
      ["mbsSessionId", "tmgiAllocReq", "serviceType", "locationDependent", "areaSessionId",
        "ingressTunAddrReq", "mbsServiceArea", "extMbsServiceArea", "mbsServInfo", "mbsFsaIdList",
        "associatedSessionId", "startTime", "terminationTime"] d
    let areaSessionId ← fields.optional "areaSessionId"
    let associatedSessionId ← fields.optional "associatedSessionId"
    let extMbsServiceArea ← fields.optional "extMbsServiceArea"
    let ingressTunAddrReq ← fields.member? "ingressTunAddrReq"
    let locationDependent ← fields.member? "locationDependent"
    let mbsFsaIdList ← fields.member? "mbsFsaIdList"
    let mbsServInfo ← fields.optional "mbsServInfo"
    let mbsServiceArea ← fields.optional "mbsServiceArea"
    let mbsSessionId ← fields.member? "mbsSessionId"
    let serviceType ← fields.member? "serviceType"
    let startTime ← fields.optional "startTime"
    let terminationTime ← fields.optional "terminationTime"
    let tmgiAllocReq ← fields.member? "tmgiAllocReq"
    return { mbsSessionId := ← needed mbsSessionId, tmgiAllocReq := tmgiAllocReq.getD false,
             serviceType := ← needed serviceType,
             locationDependent := locationDependent.getD false, areaSessionId,
             ingressTunAddrReq := ingressTunAddrReq.getD false, mbsServiceArea,
             extMbsServiceArea, mbsServInfo, mbsFsaIdList := mbsFsaIdList.getD {},
             associatedSessionId, startTime, terminationTime }

end MbsSession

end MbsClient
