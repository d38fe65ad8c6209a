import MbsClient.Model.BitRate
import MbsClient.Model.Priority
import MbsClient.Patch.Record

/-!
# Service information — media components and their quality of service (TS 29.571)
-/

namespace MbsClient

inductive MediaType where
  | audio | video | data | application | control | text | message | other
deriving DecidableEq, Repr

instance : Constant MediaType where
  all := [.audio, .video, .data, .application, .control, .text, .message, .other]
  name
    | .audio => "AUDIO"
    | .video => "VIDEO"
    | .data => "DATA"
    | .application => "APPLICATION"
    | .control => "CONTROL"
    | .text => "TEXT"
    | .message => "MESSAGE"
    | .other => "OTHER"

inductive PreemptionCapability where
  | notPreempt | mayPreempt
deriving DecidableEq, Repr, Inhabited

instance : Constant PreemptionCapability where
  all := [.notPreempt, .mayPreempt]
  name
    | .notPreempt => "NOT_PREEMPT"
    | .mayPreempt => "MAY_PREEMPT"

inductive PreemptionVulnerability where
  | notPreemptable | preemptable
deriving DecidableEq, Repr, Inhabited

instance : Constant PreemptionVulnerability where
  all := [.notPreemptable, .preemptable]
  name
    | .notPreemptable => "NOT_PREEMPTABLE"
    | .preemptable => "PREEMPTABLE"

/-! ## Quality of service -/

/-- Allocation and retention priority. -/
structure Arp where
  /-- 1 (highest) to 15; documents may hold any level. -/
  priorityLevel : UInt8
  preemptCap : PreemptionCapability
  preemptVuln : PreemptionVulnerability
deriving DecidableEq, Repr

namespace Arp

/-- Levels outside 1 to 15 are refused. -/
def ofLevel (level : UInt8) (cap : PreemptionCapability) (vuln : PreemptionVulnerability) :
    Except ValueFault Arp :=
  if 1 ≤ level ∧ level ≤ 15 then .ok ⟨level, cap, vuln⟩ else .error (.arpPriority level.toNat)

instance : Record Arp :=
  ⟨[.always "priorityLevel" priorityLevel, .always "preemptCap" preemptCap,
    .always "preemptVuln" preemptVuln]⟩

instance : Decode Arp where
  decode d := do
    let fields ← Fields.read ["priorityLevel", "preemptCap", "preemptVuln"] d
    let preemptCap ← fields.member? "preemptCap"
    let preemptVuln ← fields.member? "preemptVuln"
    let priorityLevel ← fields.member? "priorityLevel"
    return { priorityLevel := ← needed priorityLevel, preemptCap := ← needed preemptCap,
             preemptVuln := ← needed preemptVuln }

end Arp

/-- Quality of service that a media component asks for. -/
structure MbsQosReq where
  fiveQi : UInt8
  guarBitRate : Option BitRate := none
  maxBitRate : Option BitRate := none
  /-- Milliseconds. -/
  averWindow : Option UInt16 := none
  reqMbsArp : Option Arp := none
deriving DecidableEq, Repr

namespace MbsQosReq

/-- The longest averaging window. -/
def averWindowMax : UInt16 := 4095

/-- A window of 1 to 4095 milliseconds, or none. -/
def setAverWindow (q : MbsQosReq) (window : Option UInt16) : Except ValueFault MbsQosReq :=
  match window with
  | some w =>
      if 1 ≤ w ∧ w ≤ averWindowMax then .ok { q with averWindow := window }
      else .error (.averagingWindow averWindowMax.toNat)
  | none => .ok { q with averWindow := none }

instance : Record MbsQosReq :=
  ⟨[.always "5qi" fiveQi, .optional "guarBitRate" guarBitRate, .optional "maxBitRate" maxBitRate,
    .optional "averWindow" averWindow, .optional "reqMbsArp" reqMbsArp]⟩

instance : Decode MbsQosReq where
  decode d := do
    let fields ← Fields.read ["5qi", "guarBitRate", "maxBitRate", "averWindow", "reqMbsArp"] d
    let fiveQi ← fields.member? "5qi"
    let averWindow ← fields.optional "averWindow"
    let guarBitRate ← fields.optional "guarBitRate"
    let maxBitRate ← fields.optional "maxBitRate"
    let reqMbsArp ← fields.optional "reqMbsArp"
    return { fiveQi := ← needed fiveQi, guarBitRate, maxBitRate, averWindow, reqMbsArp }

end MbsQosReq

/-! ## Media -/

/-- Up to two codecs; a place may be empty before a filled one. -/
structure CodecSlots where
  first : Option String := none
  second : Option String := none
deriving DecidableEq, Repr, Inhabited

namespace CodecSlots

/-- The codecs that are there, in the order of their places. -/
def toList (c : CodecSlots) : List String := c.first.toList ++ c.second.toList

/-- Fills the places from the first on. -/
def ofList : List String → Decoded CodecSlots
  | [] => .ok {}
  | [a] => .ok { first := some a }
  | [a, b] => .ok { first := some a, second := some b }
  | codecs => .error (.codecCount codecs.length)

instance : Decode CodecSlots where
  decode d := do
    let codecs : List String ← decode d
    ofList codecs

end CodecSlots

/-- Description of a media component. -/
structure MbsMediaInfo where
  mbsMedType : Option MediaType := none
  maxReqMbsBwDl : Option BitRate := none
  minReqMbsBwDl : Option BitRate := none
  codecs : CodecSlots := {}
deriving DecidableEq, Repr, Inhabited

namespace MbsMediaInfo

def codecList (m : MbsMediaInfo) : List String := m.codecs.toList

/-- The first codec that is there. -/
def primaryCodec (m : MbsMediaInfo) : Option String := m.codecList.head?

instance : Record MbsMediaInfo :=
  ⟨[.optional "mbsMedType" mbsMedType, .optional "maxReqMbsBwDl" maxReqMbsBwDl,
    .optional "minReqMbsBwDl" minReqMbsBwDl, .sequence "codecs" codecList]⟩

instance : Decode MbsMediaInfo where
  decode d := do
    let fields ← Fields.read ["mbsMedType", "maxReqMbsBwDl", "minReqMbsBwDl", "codecs"] d
    let codecs ← fields.member? "codecs"
    let maxReqMbsBwDl ← fields.optional "maxReqMbsBwDl"
    let mbsMedType ← fields.optional "mbsMedType"
    let minReqMbsBwDl ← fields.optional "minReqMbsBwDl"
    return { mbsMedType, maxReqMbsBwDl, minReqMbsBwDl, codecs := codecs.getD {} }

end MbsMediaInfo

/-- Where the quality of service of a component comes from. -/
inductive QosSource where
  | mediaInfo (info : MbsMediaInfo)
  | qosRef (ref : String)
  | qosReq (req : MbsQosReq)
deriving DecidableEq, Repr

/-- A media component. It may hold up to three sources of quality of service; its document shows
only the effective one. -/
structure MbsMediaComp where
  mbsMedCompNum : UInt32
  mbsFlowDescs : List String := []
  mbsSdfResPrio : Option ReservationPriority := none
  mbsMediaInfo : Option MbsMediaInfo := none
  qosRef : Option String := none
  mbsQoSReq : Option MbsQosReq := none
deriving DecidableEq, Repr

namespace MbsMediaComp

/-- Media information comes before a reference, a reference before requirements. -/
def effectiveQos (c : MbsMediaComp) : Option QosSource :=
  match c.mbsMediaInfo, c.qosRef, c.mbsQoSReq with
  | some info, _, _ => some (.mediaInfo info)
  | none, some ref, _ => some (.qosRef ref)
  | none, none, some req => some (.qosReq req)
  | none, none, none => none

instance : Record MbsMediaComp :=
  ⟨[.always "mbsMedCompNum" mbsMedCompNum, .sequence "mbsFlowDescs" mbsFlowDescs,
    .optional "mbsSdfResPrio" mbsSdfResPrio, .optional "mbsMediaInfo" mbsMediaInfo,
    .hidden "qosRef" (fun c => c.mbsMediaInfo.isNone) qosRef,
    .hidden "mbsQoSReq" (fun c => c.mbsMediaInfo.isNone && c.qosRef.isNone) mbsQoSReq]⟩

instance : Decode MbsMediaComp where
  decode d := do
    let fields ← Fields.read
      ["mbsMedCompNum", "mbsFlowDescs", "mbsSdfResPrio", "mbsMediaInfo", "qosRef", "mbsQoSReq"] d
    let mbsFlowDescs ← fields.member? "mbsFlowDescs"
    let mbsMedCompNum ← fields.member? "mbsMedCompNum"
    let mbsMediaInfo ← fields.optional "mbsMediaInfo"
    let mbsQoSReq ← fields.optional "mbsQoSReq"
    let mbsSdfResPrio ← fields.optional "mbsSdfResPrio"
    let qosRef ← fields.optional "qosRef"
    return { mbsMedCompNum := ← needed mbsMedCompNum, mbsFlowDescs := mbsFlowDescs.getD [],
             mbsSdfResPrio, mbsMediaInfo, qosRef, mbsQoSReq }

end MbsMediaComp

/-- Media components under their numbers, and what they share. -/
structure MbsServiceInfo where
  mbsMediaComps : SortedMap UInt32 MbsMediaComp := .empty
  mbsSdfResPrio : Option ReservationPriority := none
  afAppId : Option String := none
  mbsSessionAmbr : Option BitRate := none
deriving DecidableEq, Inhabited

namespace MbsServiceInfo

/-- Puts a component under its own number and gives back the one it replaces. -/
def addMediaComp (s : MbsServiceInfo) (c : MbsMediaComp) : MbsServiceInfo × Option MbsMediaComp :=
  ({ s with mbsMediaComps := s.mbsMediaComps.insert c.mbsMedCompNum c },
    s.mbsMediaComps.get? c.mbsMedCompNum)

/-- Takes the component under a number out and gives it back. -/
def removeMediaComp (s : MbsServiceInfo) (num : UInt32) : MbsServiceInfo × Option MbsMediaComp :=
  ({ s with mbsMediaComps := s.mbsMediaComps.erase num }, s.mbsMediaComps.get? num)

instance : Record MbsServiceInfo :=
  ⟨[.always "mbsMediaComps" mbsMediaComps, .optional "mbsSdfResPrio" mbsSdfResPrio,
    .optional "afAppId" afAppId, .optional "mbsSessionAmbr" mbsSessionAmbr]⟩

instance : Decode MbsServiceInfo where
  decode d := do
    let fields ← Fields.read ["mbsMediaComps", "mbsSdfResPrio", "afAppId", "mbsSessionAmbr"] d
    let afAppId ← fields.optional "afAppId"
    let mbsMediaComps ← fields.member? "mbsMediaComps"
    let mbsSdfResPrio ← fields.optional "mbsSdfResPrio"
    let mbsSessionAmbr ← fields.optional "mbsSessionAmbr"
    return { mbsMediaComps := mbsMediaComps.getD .empty, mbsSdfResPrio, afAppId, mbsSessionAmbr }

end MbsServiceInfo

end MbsClient
