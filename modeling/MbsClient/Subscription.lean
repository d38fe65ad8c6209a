import MbsClient.Config
import MbsClient.Endpoint
import MbsClient.Intent

/-!
# Subscriptions — a status subscription and how far the MB-SMF knows of it

A subscription that has an outstanding request keeps the record that was sent (`inFlight`). An
answer turns it into the acknowledged record; whatever changes meanwhile makes the subscription
dirty again.
-/

namespace MbsClient

open Time

structure Subscription where
  key : SubscriptionKey
  /-- The session it is held by. -/
  session : SessionKey
  data : MbsSessionSubscription
  /-- The record takes over the identity of the session. -/
  inheritsSessionId : Bool
  /-- Assigned by the MB-SMF. -/
  id : Option String := none
  endpoint : Option NotificationEndpoint := none
  /-- There is something to send. -/
  dirty : Bool := true
  /-- The record that the MB-SMF has acknowledged. -/
  acked : Option MbsSessionSubscription := none
  /-- The record sent by the outstanding request. -/
  inFlight : Option MbsSessionSubscription := none
  grantedExpiry : Option Instant := none
  /-- The application is told how requests went. -/
  watchesResults : Bool := false
  /-- The application is told of notifications. -/
  watchesReports : Bool := false
deriving DecidableEq

/-- A local change. -/
inductive SubscriptionChange where
  | areaSessionId (id : Option UInt16)
  | eventMask (mask : MbsSessionEventMask)
  | addEvent (event : MbsSessionEventType)
  | removeEvent (event : MbsSessionEventType)
  | correlationId (id : Option String)
  | expiryTime (time : Option Instant)
  | nfcInstanceId (id : Option String)
  /-- Fixes the identity that the record carries, or leaves it to the session. -/
  | mbsSessionId (id : Option MbsSessionId)
  /-- Tells the application of results and notifications from now on. -/
  | watch
deriving DecidableEq

namespace Subscription

def new (key : SubscriptionKey) (session : SessionKey) (data : MbsSessionSubscription) :
    Subscription :=
  { key, session, data, inheritsSessionId := data.mbsSessionId.isNone }

def isInFlight (s : Subscription) : Bool := s.inFlight.isSome

/-- There is something to send and nothing to wait for. -/
def isDue (s : Subscription) : Bool := s.dirty && !s.isInFlight

/-- Makes a local change to the record. -/
def change (s : Subscription) : SubscriptionChange → Subscription
  | .areaSessionId areaSessionId => { s with data := { s.data with areaSessionId }, dirty := true }
  | .eventMask eventList => { s with data := { s.data with eventList }, dirty := true }
  | .addEvent event =>
      { s with data := { s.data with eventList := s.data.eventList.insert event }, dirty := true }
  | .removeEvent event =>
      { s with data := { s.data with eventList := s.data.eventList.erase event }, dirty := true }
  | .correlationId notifyCorrelationId =>
      { s with data := { s.data with notifyCorrelationId }, dirty := true }
  | .expiryTime expiryTime => { s with data := { s.data with expiryTime }, dirty := true }
  | .nfcInstanceId nfcInstanceId => { s with data := { s.data with nfcInstanceId }, dirty := true }
  | .mbsSessionId mbsSessionId =>
      { s with data := { s.data with mbsSessionId }, inheritsSessionId := mbsSessionId.isNone,
               dirty := true }
  | .watch => { s with watchesResults := true, watchesReports := true }

/-! ## Requests -/

/-- Settles where notifications go: on the first configured server, once and for all. A record
that names an address of its own keeps it. -/
def withEndpoint (servers : List NotificationServer) (s : Subscription) : Subscription :=
  let endpoint := s.endpoint <|> servers.head?.map fun server => .ofKey 0 server.apiRoot s.key
  let notifyUri := s.data.notifyUri <|> endpoint.map NotificationEndpoint.url
  { s with endpoint, data := { s.data with notifyUri } }

/-- The subscription as it is sent for creation in a session of the given identity. -/
def sendCreate (sessionId : MbsSessionId) (servers : List NotificationServer) (s : Subscription) :
    Subscription :=
  let s := s.withEndpoint servers
  let data :=
    if s.inheritsSessionId then { s.data with mbsSessionId := some sessionId } else s.data
  { s with data, dirty := false, inFlight := some data }

/-- The subscription as it is sent for a change. -/
def sendUpdate (s : Subscription) : Subscription :=
  { s with dirty := false, inFlight := some s.data }

/-- What has changed since the MB-SMF acknowledged the record. -/
def pendingOps (s : Subscription) : List Patch.Operation := Diff.snapshots s.acked (some s.data)

/-! ## Answers -/

/-- What was sent is acknowledged; an expiry that is not granted anew stays as it is. -/
def confirm (expiry : Option Instant) (s : Subscription) : Subscription :=
  { s with acked := s.inFlight, inFlight := none, grantedExpiry := expiry <|> s.grantedExpiry }

/-- The same for a creation, which assigns the id. -/
def confirmCreate (id : String) (expiry : Option Instant) (s : Subscription) : Subscription :=
  { s.confirm expiry with id := some id }

/-- What was sent did not get through, so it is sent again. -/
def fail (s : Subscription) : Subscription := { s with inFlight := none, dirty := true }

/-- Forgets what the MB-SMF knows, so it is created anew. -/
def forgetRemote (s : Subscription) : Subscription :=
  { s with id := none, acked := none, inFlight := none, grantedExpiry := none, dirty := true }

/-- Tells the application how a request went. -/
def report (s : Subscription) (result : OperationResult) : List Call :=
  if s.watchesResults then [.subscription s.key result] else []

/-- Tells the application of notifications. -/
def deliver (s : Subscription) (reports : List MbsSessionEventReport) : List Call :=
  if s.watchesReports then reports.map (.report s.key) else []

end Subscription

end MbsClient
