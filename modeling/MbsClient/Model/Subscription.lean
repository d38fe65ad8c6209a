import MbsClient.Model.Session

/-!
# Status subscriptions and the reports they bring (TS 29.532)
-/

namespace MbsClient

open Time

/-- What a subscription can ask to be told of. -/
inductive MbsSessionEventType where
  | mbsRelTmgiExpiry | broadcastDeliveryStatus | ingressTunnelAddChange
deriving DecidableEq, Repr

instance : Constant MbsSessionEventType where
  all := [.mbsRelTmgiExpiry, .broadcastDeliveryStatus, .ingressTunnelAddChange]
  name
    | .mbsRelTmgiExpiry => "MBS_REL_TMGI_EXPIRY"
    | .broadcastDeliveryStatus => "BROADCAST_DELIVERY_STATUS"
    | .ingressTunnelAddChange => "INGRESS_TUNNEL_ADD_CHANGE"

/-- An entry of the event list of a subscription. -/
structure MbsSessionEvent where
  eventType : MbsSessionEventType
deriving DecidableEq, Repr

namespace MbsSessionEvent

instance : Record MbsSessionEvent := ⟨[.always "eventType" eventType]⟩

instance : Decode MbsSessionEvent where
  decode d := do
    let fields ← Fields.read ["eventType"] d
    let eventType ← fields.member? "eventType"
    return ⟨← needed eventType⟩

end MbsSessionEvent

/-- A set of event types; its document lists them in a fixed order. -/
structure MbsSessionEventMask where
  mbsRelTmgiExpiry : Bool := false
  broadcastDeliveryStatus : Bool := false
  ingressTunnelAddChange : Bool := false
deriving DecidableEq, Repr, Inhabited

namespace MbsSessionEventMask

def contains (m : MbsSessionEventMask) : MbsSessionEventType → Bool
  | .mbsRelTmgiExpiry => m.mbsRelTmgiExpiry
  | .broadcastDeliveryStatus => m.broadcastDeliveryStatus
  | .ingressTunnelAddChange => m.ingressTunnelAddChange

/-- Puts an event type in, or takes it out. -/
def set (m : MbsSessionEventMask) (event : MbsSessionEventType) (present : Bool) :
    MbsSessionEventMask :=
  match event with
  | .mbsRelTmgiExpiry => { m with mbsRelTmgiExpiry := present }
  | .broadcastDeliveryStatus => { m with broadcastDeliveryStatus := present }
  | .ingressTunnelAddChange => { m with ingressTunnelAddChange := present }

def insert (m : MbsSessionEventMask) (event : MbsSessionEventType) : MbsSessionEventMask :=
  m.set event true

def erase (m : MbsSessionEventMask) (event : MbsSessionEventType) : MbsSessionEventMask :=
  m.set event false

def toList (m : MbsSessionEventMask) : List MbsSessionEventType :=
  Constant.all.filter m.contains

def ofList (events : List MbsSessionEventType) : MbsSessionEventMask := events.foldl insert {}

def isEmpty (m : MbsSessionEventMask) : Bool := m.toList.isEmpty

def events (m : MbsSessionEventMask) : List MbsSessionEvent := m.toList.map MbsSessionEvent.mk

instance : Encode MbsSessionEventMask := ⟨fun m => encode m.events⟩

instance : Decode MbsSessionEventMask where
  decode d := do
    let events : List MbsSessionEvent ← decode d
    return .ofList (events.map MbsSessionEvent.eventType)

instance : Diff MbsSessionEventMask := ⟨fun old new => Diff.list 0 old.events new.events⟩

end MbsSessionEventMask

/-- A status subscription as exchanged with the MB-SMF. -/
structure MbsSessionSubscription where
  mbsSessionId : Option MbsSessionId := none
  areaSessionId : Option UInt16 := none
  eventList : MbsSessionEventMask := {}
  notifyUri : Option String := none
  notifyCorrelationId : Option String := none
  expiryTime : Option Instant := none
  nfcInstanceId : Option String := none
deriving DecidableEq, Repr, Inhabited

namespace MbsSessionSubscription

instance : Record MbsSessionSubscription :=
  ⟨[.optional "mbsSessionId" mbsSessionId, .optional "areaSessionId" areaSessionId,
    .always "eventList" eventList, .optional "notifyUri" notifyUri,
    .optional "notifyCorrelationId" notifyCorrelationId, .optional "expiryTime" expiryTime,
    .optional "nfcInstanceId" nfcInstanceId]⟩

instance : Decode MbsSessionSubscription where
  decode d := do
    let fields ← Fields.read
      ["mbsSessionId", "areaSessionId", "eventList", "notifyUri", "notifyCorrelationId",
        "expiryTime", "nfcInstanceId"] d
    let areaSessionId ← fields.optional "areaSessionId"
    let eventList ← fields.member? "eventList"
    let expiryTime ← fields.optional "expiryTime"
    let mbsSessionId ← fields.optional "mbsSessionId"
    let nfcInstanceId ← fields.optional "nfcInstanceId"
    let notifyCorrelationId ← fields.optional "notifyCorrelationId"
    let notifyUri ← fields.optional "notifyUri"
    return { mbsSessionId, areaSessionId, eventList := eventList.getD {}, notifyUri,
             notifyCorrelationId, expiryTime, nfcInstanceId }

end MbsSessionSubscription

/-! ## Reports -/

inductive BroadcastDeliveryStatus where
  | started | terminated
deriving DecidableEq, Repr

instance : Constant BroadcastDeliveryStatus where
  all := [.started, .terminated]
  name
    | .started => "STARTED"
    | .terminated => "TERMINATED"

structure IngressTunAddrInfo where
  ingressTunAddr : List TunnelAddress := []
deriving DecidableEq, Repr

namespace IngressTunAddrInfo

instance : Encode IngressTunAddrInfo where
  encode i := .record [("ingressTunAddr", some (encode i.ingressTunAddr))]

instance : Decode IngressTunAddrInfo where
  decode d := do
    let fields ← Fields.read ["ingressTunAddr"] d
    let ingressTunAddr ← fields.member? "ingressTunAddr"
    return { ingressTunAddr := ingressTunAddr.getD [] }

end IngressTunAddrInfo

/-- One event that the MB-SMF tells of. -/
structure MbsSessionEventReport where
  eventType : MbsSessionEventType
  timeStamp : Option Instant := none
  ingressTunAddrInfo : Option IngressTunAddrInfo := none
  broadcastDelStatus : Option BroadcastDeliveryStatus := none
deriving DecidableEq, Repr

namespace MbsSessionEventReport

instance : Encode MbsSessionEventReport where
  encode r := .record [("eventType", some (encode r.eventType)),
    ("timeStamp", r.timeStamp.map encode),
    ("ingressTunAddrInfo", r.ingressTunAddrInfo.map encode),
    ("broadcastDelStatus", r.broadcastDelStatus.map encode)]

instance : Decode MbsSessionEventReport where
  decode d := do
    let fields ← Fields.read
      ["eventType", "timeStamp", "ingressTunAddrInfo", "broadcastDelStatus"] d
    let broadcastDelStatus ← fields.optional "broadcastDelStatus"
    let eventType ← fields.member? "eventType"
    let ingressTunAddrInfo ← fields.optional "ingressTunAddrInfo"
    let timeStamp ← fields.optional "timeStamp"
    return { eventType := ← needed eventType, timeStamp, ingressTunAddrInfo, broadcastDelStatus }

end MbsSessionEventReport

/-- The body of a notification. -/
structure MbsSessionEventReportList where
  eventList : List MbsSessionEventReport := []
  notifyCorrelationId : Option String := none
deriving DecidableEq, Repr

namespace MbsSessionEventReportList

instance : Encode MbsSessionEventReportList where
  encode r := .record [("eventList", some (encode r.eventList)),
    ("notifyCorrelationId", r.notifyCorrelationId.map encode)]

instance : Decode MbsSessionEventReportList where
  decode d := do
    let fields ← Fields.read ["eventList", "notifyCorrelationId"] d
    let eventList ← fields.member? "eventList"
    let notifyCorrelationId ← fields.optional "notifyCorrelationId"
    return { eventList := eventList.getD [], notifyCorrelationId }

end MbsSessionEventReportList

end MbsClient
