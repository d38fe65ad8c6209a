import MbsClient.Model.Problem
import MbsClient.Model.Subscription

/-!
# Intents — requests that a transport is to send to the MB-SMF

Reconciliation does not talk to the network. It leaves intents behind, and the transport comes
back with answers (`MbsClient.Answer`).
-/

namespace MbsClient

open Text

/-- A subscription that rides on the creation of its session. -/
structure BundledSubscription where
  key : SubscriptionKey
  snapshot : MbsSessionSubscription
deriving DecidableEq

inductive Intent where
  | createResource (session : SessionKey) (snapshot : MbsSession)
      (subscription : Option BundledSubscription)
  | removeResource (session : SessionKey) (resourceId : String)
  | patchResource (session : SessionKey) (resourceId : String) (ops : List Patch.Operation)
  | createSubscription (session : SessionKey) (subscription : SubscriptionKey)
      (resourceId : String) (snapshot : MbsSessionSubscription)
  | updateSubscription (subscription : SubscriptionKey) (subscriptionId : String)
      (ops : List Patch.Operation)
  | deleteSubscription (subscriptionId : String)

namespace Intent

def name : Intent → String
  | .createResource .. => "CreateResource"
  | .removeResource .. => "RemoveResource"
  | .patchResource .. => "PatchResource"
  | .createSubscription .. => "CreateSubscription"
  | .updateSubscription .. => "UpdateSubscription"
  | .deleteSubscription .. => "DeleteSubscription"

/-- The session that the request is made for. A subscription that is registered is known to the
MB-SMF by its id alone. -/
def session? : Intent → Option SessionKey
  | .createResource session .. => some session
  | .removeResource session _ => some session
  | .patchResource session .. => some session
  | .createSubscription session .. => some session
  | .updateSubscription .. => none
  | .deleteSubscription _ => none

/-- The body of a creation; a bundled subscription is a member of the session. -/
def createBody (snapshot : MbsSession) (subscription : Option BundledSubscription) : Json :=
  let members := Member.document Record.members snapshot
  let bundled := subscription.map fun b => encode b.snapshot
  .record [("mbsSession", some (.record (members ++ [("mbsSessionSubsc", bundled)])))]

/-- The body of the request, if it has one. -/
def body? : Intent → Option Json
  | .createResource _ snapshot subscription => some (createBody snapshot subscription)
  | .removeResource .. => none
  | .patchResource _ _ ops => some (Patch.encode ops)
  | .createSubscription _ _ _ snapshot => some (encode snapshot)
  | .updateSubscription _ _ ops => some (Patch.encode ops)
  | .deleteSubscription _ => none

/-- The intent as a line of text. -/
def text (i : Intent) : String :=
  i.name ++
    match i with
    | .createResource session snapshot subscription =>
        " session=" ++ Decimal.text session ++ " id=[" ++ snapshot.mbsSessionId.text ++ "]" ++
          match subscription with
          | some bundled => " subscription=" ++ Decimal.text bundled.key
          | none => ""
    | .removeResource session resourceId =>
        " session=" ++ Decimal.text session ++ " resource=" ++ resourceId
    | .patchResource session resourceId ops =>
        " session=" ++ Decimal.text session ++ " resource=" ++ resourceId ++ " ops=" ++
          Decimal.text ops.length
    | .createSubscription session subscription _ _ =>
        " session=" ++ Decimal.text session ++ " subscription=" ++ Decimal.text subscription
    | .updateSubscription subscription subscriptionId ops =>
        " subscription=" ++ Decimal.text subscription ++ " id=" ++ subscriptionId ++ " ops=" ++
          Decimal.text ops.length
    | .deleteSubscription subscriptionId => " id=" ++ subscriptionId

end Intent

/-! ## What the application is told -/

/-- How a request went. -/
inductive OperationResult where
  | ok
  | timedOut
  | refused (problem : ProblemDetails)
deriving DecidableEq, Repr

namespace OperationResult

def isOk : OperationResult → Bool
  | .ok => true
  | _ => false

def text : OperationResult → String
  | .ok => "ok"
  | .timedOut => "timed out"
  | .refused problem => "error " ++ problem.text

end OperationResult

/-- A call to the application, which watches the session or subscription. -/
inductive Call where
  | session (key : SessionKey) (result : OperationResult)
  | subscription (key : SubscriptionKey) (result : OperationResult)
  | report (key : SubscriptionKey) (report : MbsSessionEventReport)
deriving DecidableEq, Repr

end MbsClient
