import MbsClient.Session.Push

/-!
# Answered — a session takes in what became of its requests

Each function says what an answer changes and what the application is told. A subscription is told
of before its session.
-/

namespace MbsClient

/-- The record with a TMGI that the MB-SMF has allocated; none is asked for any more. -/
def MbsSession.withAllocated (r : MbsSession) : Option Tmgi → MbsSession
  | some tmgi =>
      { r with mbsSessionId := { r.mbsSessionId with tmgi := some tmgi }, tmgiAllocReq := false }
  | none => r

namespace Session

/-! ## Creation of the session -/

/-- The body and the subscription of the creation that is waited for. -/
def waitingFor? (s : Session) : Option (MbsSession × Option SubscriptionKey) :=
  match s.deleted, s.remote with
  | false, .creating body bundled => some (body, bundled)
  | _, _ => none

/-- Fails the subscription that rode on a creation. -/
def failBundled (bundled : Option SubscriptionKey) (subs : List Subscription) :
    List Subscription :=
  match bundled with
  | some key => modifyIn key Subscription.fail subs
  | none => subs

/-- Tells of the subscription that rode on a creation. -/
def reportBundled (s : Session) (bundled : Option SubscriptionKey) (result : OperationResult) :
    List Call :=
  match bundled.bind fun key => s.pendingNew.find? fun sub => sub.key = key with
  | some sub => sub.report result
  | none => []

/-- The bundled subscription is registered under its id. -/
def settleBundled (id : String) (sub : Subscription) (subs : List Subscription) :
    List Subscription × SortedMap String Subscription :=
  (subs.filter fun other => other.key != sub.key,
    SortedMap.empty.insert id (sub.confirmCreate id none))

/-- The creation with the given body succeeded. A TMGI that is set locally by now is kept; the
acknowledged record has the one that the answer names. -/
def created (s : Session) (body : MbsSession) (bundled : Option SubscriptionKey)
    (answer : SessionCreated) : Session × List Call :=
  let acked := body.withAllocated answer.tmgi
  let data := if s.data.tmgi.isNone then s.data.withAllocated answer.tmgi else s.data
  let sub? := bundled.bind fun key => s.pendingNew.find? fun sub => sub.key = key
  let (pendingNew, active, calls) :=
    match sub?, answer.subscriptionId with
    | some sub, some id =>
        let (pendingNew, active) := settleBundled id sub s.pendingNew
        (pendingNew, active, sub.report .ok)
    -- not registered after all, so it is sent on its own
    | some sub, none => (modifyIn sub.key Subscription.fail s.pendingNew, .empty, [])
    | none, _ => (s.pendingNew, .empty, [])
  ({ s with
      data
      remote := .registered { id := answer.resourceId, acked, active }
      dirty := s.dirty || (pendingNew ++ active.values).any Subscription.dirty
      identity := acked.mbsSessionId
      pendingNew
      ingressTunAddrs := answer.ingressTunAddrs
      expirationTime := answer.expirationTime },
    calls ++ s.report .ok)

/-- The creation was refused, so it is tried again. -/
def refused (s : Session) (bundled : Option SubscriptionKey) (problem : ProblemDetails) :
    Session × List Call :=
  ({ s with pendingNew := failBundled bundled s.pendingNew, remote := .absent, dirty := true },
    s.reportBundled bundled (.refused problem) ++ s.report (.refused problem))

/-- What the application is told when a creation times out; the session is gone. -/
def timedOut (s : Session) (bundled : Option SubscriptionKey) : List Call :=
  s.reportBundled bundled .timedOut ++ s.report .timedOut

/-! ## Patches -/

/-- The outstanding patch was answered. The answer counts only for a session that is registered
and not deleted. -/
def patched (s : Session) (result : OperationResult) : Session × List Call :=
  match s.deleted, s.remote with
  | false, .registered r =>
      match r.patching with
      | some body =>
          let acked := if result.isOk then body else r.acked
          ({ s with remote := .registered { r with acked, patching := none },
                    dirty := s.dirty || !result.isOk },
            s.report result)
      | none => (s, [])
  | _, _ => (s, [])

/-! ## Subscriptions -/

/-- The creation of a subscription was answered. There is nothing to answer unless the session is
registered and not deleted and the subscription is new and waits for the answer. -/
def subscriptionCreated? (s : Session) (key : SubscriptionKey)
    (result : Except OperationResult SubscriptionAck) : Option (Session × List Call) :=
  match s.deleted, s.remote with
  | false, .registered r =>
      match s.pendingNew.find? fun sub => sub.key = key && sub.isInFlight with
      | none => none
      | some sub =>
          match result with
          | .ok ack =>
              let confirmed := sub.confirmCreate ack.id ack.expiryTime
              some ({ s with
                  pendingNew := s.pendingNew.filter fun sub => sub.key != key
                  remote := .registered { r with active := r.active.insert ack.id confirmed }
                  dirty := s.dirty || confirmed.dirty },
                sub.report .ok)
          | .error failure =>
              some ({ s with pendingNew := modifyIn key Subscription.fail s.pendingNew,
                             dirty := true },
                sub.report failure)
  | _, _ => none

/-- The change of a subscription was answered; it counts only where the subscription is registered
and waits for the answer. -/
def subscriptionUpdated (s : Session) (key : SubscriptionKey)
    (result : Except OperationResult SubscriptionAck) : Session × List Call :=
  match s.active.values.find? fun sub => sub.key = key && sub.isInFlight with
  | none => (s, [])
  | some sub =>
      match result with
      | .ok ack =>
          let s := s.modifySubscription key (Subscription.confirm ack.expiryTime)
          ({ s with dirty := s.dirty || sub.dirty }, sub.report .ok)
      | .error failure =>
          let s := s.modifySubscription key Subscription.fail
          ({ s with dirty := true }, sub.report failure)

end Session

end MbsClient
