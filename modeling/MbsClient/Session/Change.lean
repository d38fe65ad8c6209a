import MbsClient.Session.Basic

/-!
# Changes — what the application may do to a session record

Every change makes the session dirty, except one that takes away what is not there.
-/

namespace MbsClient

open Time

inductive SessionChange where
  | ssm (ssm : Option Ssm)
  /-- A TMGI makes the request for one void. -/
  | tmgi (tmgi : Option Tmgi)
  | tmgiAllocReq (request : Bool)
  /-- Only broadcast sessions keep their frequency selection areas. -/
  | serviceType (type : MbsSessionType)
  /-- Only location-dependent sessions keep their area session. -/
  | locationDependent (dependent : Bool)
  | areaSessionId (id : Option UInt16)
  | ingressTunAddrReq (request : Bool)
  | serviceArea (area : Option MbsServiceArea)
  | extServiceArea (area : Option ExtMbsServiceArea)
  | serviceInfo (info : Option MbsServiceInfo)
  | addMediaComp (comp : MbsMediaComp)
  | removeMediaComp (num : UInt32)
  /-- Refused for sessions that are not broadcast. -/
  | fsaIds (ids : List FsaId)
  | associatedSessionId (id : Option String)
  | startTime (time : Option Instant)
  | terminationTime (time : Option Instant)
  /-- Replaces the whole record. -/
  | record (data : MbsSession)

namespace MbsSession

def mediaComp? (r : MbsSession) (num : UInt32) : Option MbsMediaComp :=
  r.mbsServInfo.bind fun info => info.mbsMediaComps.get? num

/-- The record after a change. -/
def change (r : MbsSession) : SessionChange → Except ValueFault MbsSession
  | .ssm ssm => .ok { r with mbsSessionId := { r.mbsSessionId with ssm } }
  | .tmgi tmgi =>
      .ok { r with
        mbsSessionId := { r.mbsSessionId with tmgi }
        tmgiAllocReq := r.tmgiAllocReq && tmgi.isNone }
  | .tmgiAllocReq tmgiAllocReq => .ok { r with tmgiAllocReq }
  | .serviceType .multicast => .ok { r with serviceType := .multicast, mbsFsaIdList := {} }
  | .serviceType .broadcast => .ok { r with serviceType := .broadcast }
  | .locationDependent false => .ok { r with locationDependent := false, areaSessionId := none }
  | .locationDependent true => .ok { r with locationDependent := true }
  | .areaSessionId areaSessionId => .ok { r with areaSessionId }
  | .ingressTunAddrReq ingressTunAddrReq => .ok { r with ingressTunAddrReq }
  | .serviceArea mbsServiceArea => .ok { r with mbsServiceArea }
  | .extServiceArea extMbsServiceArea => .ok { r with extMbsServiceArea }
  | .serviceInfo mbsServInfo => .ok { r with mbsServInfo }
  | .addMediaComp comp =>
      .ok { r with mbsServInfo := some ((r.mbsServInfo.getD {}).addMediaComp comp).1 }
  | .removeMediaComp num =>
      .ok { r with mbsServInfo := r.mbsServInfo.map fun info => (info.removeMediaComp num).1 }
  | .fsaIds ids =>
      if ids.isEmpty || r.isBroadcast then .ok { r with mbsFsaIdList := ⟨ids⟩ }
      else .error .fsaIdsNotBroadcast
  | .associatedSessionId associatedSessionId => .ok { r with associatedSessionId }
  | .startTime startTime => .ok { r with startTime }
  | .terminationTime terminationTime => .ok { r with terminationTime }
  | .record data => .ok data

end MbsSession

/-- Whether the change takes away a media component that the record does not have. -/
def SessionChange.isIdle (c : SessionChange) (r : MbsSession) : Bool :=
  match c with
  | .removeMediaComp num => (r.mediaComp? num).isNone
  | _ => false

namespace Session

/-- Makes a local change to the record. -/
def change (s : Session) (c : SessionChange) : Except Error Session :=
  if c.isIdle s.data then .ok s
  else (s.data.change c).mapError .value |>.map fun data => { s with data, dirty := true }

end Session

end MbsClient
