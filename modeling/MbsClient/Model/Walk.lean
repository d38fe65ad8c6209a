import MbsClient.Model.Subscription
import MbsClient.Patch.Walk

/-!
# Walks through the types of the model

The members of a record are walked through in the order in which differences are reported.
-/

namespace MbsClient

open Time Walk

/-! ## Values without parts -/

instance : Walk BitRate := ⟨scalar⟩
instance : Walk ReservationPriority := ⟨scalar⟩
instance : Walk Instant := ⟨scalar⟩
instance : Walk Ssm := ⟨scalar⟩
instance {k : IdentifierKind} : Walk (Identifier k) := ⟨scalar⟩

/-! ## Identities -/

instance : RecordWalk PlmnId := ⟨[field "mcc" PlmnId.mcc, field "mnc" PlmnId.mnc]⟩

instance : RecordWalk Tmgi :=
  ⟨[field "mbsServiceId" Tmgi.mbsServiceId, field "plmnId" Tmgi.plmnId]⟩

instance : RecordWalk MbsSessionId :=
  ⟨[field "tmgi" MbsSessionId.tmgi, field "ssm" MbsSessionId.ssm]⟩

/-! ## Service areas -/

instance : RecordWalk Tai :=
  ⟨[field "plmnId" Tai.plmnId, field "tac" Tai.tac, field "nid" Tai.nid]⟩

instance : RecordWalk Ncgi :=
  ⟨[field "plmnId" Ncgi.plmnId, field "nrCellId" Ncgi.nrCellId, field "nid" Ncgi.nid]⟩

instance : RecordWalk NcgiTai := ⟨[field "tai" NcgiTai.tai, field "cellList" NcgiTai.cellList]⟩

instance : RecordWalk MbsServiceArea :=
  ⟨[sequence "ncgiList" MbsServiceArea.ncgiList, sequence "taiList" MbsServiceArea.taiList]⟩

instance : RecordWalk CivicAddress := ⟨CivicElement.all.map fun e => field e.name (·.get? e)⟩

instance : RecordWalk GeographicalCoordinates :=
  ⟨[field "lon" GeographicalCoordinates.lon, field "lat" GeographicalCoordinates.lat]⟩

instance : RecordWalk UncertaintyEllipse :=
  ⟨[field "semiMajor" UncertaintyEllipse.semiMajor, field "semiMinor" UncertaintyEllipse.semiMinor,
    field "orientationMajor" UncertaintyEllipse.orientationMajor]⟩

instance : RecordWalk PointArea := ⟨[field "point" PointArea.point]⟩

instance : RecordWalk CircleArea :=
  ⟨[field "point" CircleArea.point, field "uncertainty" CircleArea.uncertainty]⟩

instance : RecordWalk EllipseArea :=
  ⟨[field "point" EllipseArea.point, field "uncertaintyEllipse" EllipseArea.uncertaintyEllipse,
    field "confidence" EllipseArea.confidence]⟩

instance : RecordWalk PolygonArea := ⟨[field "pointList" PolygonArea.pointList]⟩

instance : RecordWalk AltitudeArea :=
  ⟨[field "point" AltitudeArea.point, field "altitude" AltitudeArea.altitude]⟩

instance : RecordWalk AltitudeEllipseArea :=
  ⟨[field "point" AltitudeEllipseArea.point, field "altitude" AltitudeEllipseArea.altitude,
    field "uncertaintyEllipse" AltitudeEllipseArea.uncertaintyEllipse,
    field "uncertaintyAltitude" AltitudeEllipseArea.uncertaintyAltitude,
    field "confidence" AltitudeEllipseArea.confidence]⟩

instance : RecordWalk ArcArea :=
  ⟨[field "point" ArcArea.point, field "innerRadius" ArcArea.innerRadius,
    field "uncertaintyRadius" ArcArea.uncertaintyRadius, field "offsetAngle" ArcArea.offsetAngle,
    field "includedAngle" ArcArea.includedAngle, field "confidence" ArcArea.confidence]⟩

/-- An area of another shape is another object. -/
instance : Walk GeographicArea where
  walk same
    | .point a, .point b => walk same a b
    | .circle a, .circle b => walk same a b
    | .ellipse a, .ellipse b => walk same a b
    | .polygon a, .polygon b => walk same a b
    | .altitude a, .altitude b => walk same a b
    | .altitudeEllipse a, .altitudeEllipse b => walk same a b
    | .arc a, .arc b => walk same a b
    | _, b => fun r => r.put .replace (some (encode b))

instance : RecordWalk ExtMbsServiceArea :=
  ⟨[sequence "civicAddressList" ExtMbsServiceArea.civicAddressList,
    sequence "geographicAreaList" ExtMbsServiceArea.geographicAreaList]⟩

/-! ## Service information -/

instance : RecordWalk Arp :=
  ⟨[field "priorityLevel" Arp.priorityLevel, field "preemptCap" Arp.preemptCap,
    field "preemptVuln" Arp.preemptVuln]⟩

instance : RecordWalk MbsQosReq :=
  ⟨[field "5qi" MbsQosReq.fiveQi, field "guarBitRate" MbsQosReq.guarBitRate,
    field "maxBitRate" MbsQosReq.maxBitRate, field "averWindow" MbsQosReq.averWindow,
    field "reqMbsArp" MbsQosReq.reqMbsArp]⟩

/-- The lists of codecs are made from the slots. -/
instance : RecordWalk MbsMediaInfo :=
  ⟨[field "mbsMedType" MbsMediaInfo.mbsMedType, field "maxReqMbsBwDl" MbsMediaInfo.maxReqMbsBwDl,
    field "minReqMbsBwDl" MbsMediaInfo.minReqMbsBwDl,
    made (sequence "codecs" MbsMediaInfo.codecList)]⟩

/-- Sources that the document hides are walked through as well. -/
instance : RecordWalk MbsMediaComp :=
  ⟨[field "mbsMedCompNum" MbsMediaComp.mbsMedCompNum,
    sequence "mbsFlowDescs" MbsMediaComp.mbsFlowDescs,
    field "mbsSdfResPrio" MbsMediaComp.mbsSdfResPrio,
    field "mbsMediaInfo" MbsMediaComp.mbsMediaInfo, field "qosRef" MbsMediaComp.qosRef,
    field "mbsQoSReq" MbsMediaComp.mbsQoSReq]⟩

instance : RecordWalk MbsServiceInfo :=
  ⟨[field "mbsMediaComps" MbsServiceInfo.mbsMediaComps,
    field "mbsSdfResPrio" MbsServiceInfo.mbsSdfResPrio, field "afAppId" MbsServiceInfo.afAppId,
    field "mbsSessionAmbr" MbsServiceInfo.mbsSessionAmbr]⟩

/-! ## Sessions and subscriptions -/

instance : RecordWalk MbsSession :=
  ⟨[field "mbsSessionId" MbsSession.mbsSessionId, flag "tmgiAllocReq" MbsSession.tmgiAllocReq,
    field "serviceType" MbsSession.serviceType,
    flag "locationDependent" MbsSession.locationDependent,
    field "areaSessionId" MbsSession.areaSessionId,
    flag "ingressTunAddrReq" MbsSession.ingressTunAddrReq,
    field "mbsServiceArea" MbsSession.mbsServiceArea,
    field "extMbsServiceArea" MbsSession.extMbsServiceArea,
    field "mbsServInfo" MbsSession.mbsServInfo,
    sequence "mbsFsaIdList" fun s => s.mbsFsaIdList.ids,
    field "associatedSessionId" MbsSession.associatedSessionId,
    field "startTime" MbsSession.startTime, field "terminationTime" MbsSession.terminationTime]⟩

instance : RecordWalk MbsSessionEvent := ⟨[field "eventType" MbsSessionEvent.eventType]⟩

/-- The lists of events are made from the masks. -/
instance : Walk MbsSessionEventMask := ⟨fun _ old new => list false 0 old.events new.events⟩

instance : RecordWalk MbsSessionSubscription :=
  ⟨[field "mbsSessionId" MbsSessionSubscription.mbsSessionId,
    field "areaSessionId" MbsSessionSubscription.areaSessionId,
    field "eventList" MbsSessionSubscription.eventList,
    field "notifyUri" MbsSessionSubscription.notifyUri,
    field "notifyCorrelationId" MbsSessionSubscription.notifyCorrelationId,
    field "expiryTime" MbsSessionSubscription.expiryTime,
    field "nfcInstanceId" MbsSessionSubscription.nfcInstanceId]⟩

end MbsClient
