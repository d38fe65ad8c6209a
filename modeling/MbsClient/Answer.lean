import MbsClient.Model.Problem
import MbsClient.Model.Subscription
import MbsClient.Text.Split

/-!
# Answers — what the MB-SMF says to requests

Ids are read off the `Location` of an answer, everything else off its body.
-/

namespace MbsClient

open Time

/-- The last segment of the path of a URI, if it is not empty and holds no colon. Slashes at the
end of the path, a query and a fragment do not count. -/
def resourceIdOfUri? (uri : String) : Option String :=
  let path := uri.toList.takeWhile fun c => c != '?' && c != '#'
  let behind := (path.reverse.dropWhile (· == '/')).takeWhile (· != '/')
  let segment := behind.reverse
  if segment.isEmpty || segment.contains ':' then none else some (String.ofList segment)

/-- An answer that has created something, as it comes from the wire. -/
structure Response where
  location : Option String
  body : Option Json

/-! ## Sessions -/

/-- What a created session says of the subscription that rode on its creation. -/
structure CreatedSubscription where
  mbsSessionSubscUri : Option String := none

instance : Decode CreatedSubscription where
  decode d := do
    let fields ← Fields.read ["mbsSessionSubscUri"] d
    let mbsSessionSubscUri ← fields.optional "mbsSessionSubscUri"
    return { mbsSessionSubscUri }

structure CreatedSession where
  mbsSessionId : Option MbsSessionId := none
  ingressTunAddr : List TunnelAddress := []
  expirationTime : Option Instant := none
  mbsSessionSubsc : Option CreatedSubscription := none

instance : Decode CreatedSession where
  decode d := do
    let fields ← Fields.read
      ["mbsSessionId", "ingressTunAddr", "expirationTime", "mbsSessionSubsc"] d
    let expirationTime ← fields.optional "expirationTime"
    let ingressTunAddr ← fields.member? "ingressTunAddr"
    let mbsSessionId ← fields.optional "mbsSessionId"
    let mbsSessionSubsc ← fields.optional "mbsSessionSubsc"
    return { mbsSessionId, ingressTunAddr := ingressTunAddr.getD [], expirationTime,
             mbsSessionSubsc }

/-- The body of an answer to a creation. -/
structure CreateResponseBody where
  mbsSession : Option CreatedSession := none

instance : Decode CreateResponseBody where
  decode d := do
    let fields ← Fields.read ["mbsSession"] d
    let mbsSession ← fields.optional "mbsSession"
    return { mbsSession }

/-- What is known of a body that may be missing. -/
def decodeBody {α : Type} [Decode α] (missing : α) : Option Json → Except Error α
  | some body => (decode body).mapError .document
  | none => .ok missing

/-- The MB-SMF has created a session. -/
structure SessionCreated where
  resourceId : String
  /-- The TMGI that the MB-SMF has allocated. -/
  tmgi : Option Tmgi := none
  ingressTunAddrs : List TunnelAddress := []
  expirationTime : Option Instant := none
  /-- The id of the bundled subscription. -/
  subscriptionId : Option String := none
deriving DecidableEq, Repr

/-- The location is asked for before the body. -/
def SessionCreated.ofResponse (r : Response) : Except Error SessionCreated :=
  match r.location with
  | none => .error (.answer .noSessionLocation)
  | some location =>
      match resourceIdOfUri? location with
      | none => .error (.answer (.noResourceId location))
      | some resourceId => do
          let body : CreateResponseBody ← decodeBody {} r.body
          let session := body.mbsSession.getD {}
          return {
            resourceId
            tmgi := session.mbsSessionId.bind MbsSessionId.tmgi
            ingressTunAddrs := session.ingressTunAddr
            expirationTime := session.expirationTime
            subscriptionId := session.mbsSessionSubsc.bind fun s =>
              s.mbsSessionSubscUri.bind resourceIdOfUri? }

/-! ## Subscriptions -/

/-- The body of an answer to the creation or change of a subscription. -/
structure SubscriptionResponseBody where
  expiryTime : Option Instant := none

instance : Decode SubscriptionResponseBody where
  decode d := do
    let fields ← Fields.read ["expiryTime"] d
    let expiryTime ← fields.optional "expiryTime"
    return { expiryTime }

/-- The MB-SMF has created or changed a subscription. -/
structure SubscriptionAck where
  id : String
  /-- Until when the MB-SMF grants it. -/
  expiryTime : Option Instant := none
deriving DecidableEq, Repr

def SubscriptionAck.ofResponse (r : Response) : Except Error SubscriptionAck :=
  match r.location with
  | none => .error (.answer .noSubscriptionLocation)
  | some location =>
      match resourceIdOfUri? location with
      | none => .error (.answer (.noSubscriptionId location))
      | some id => do
          let body : SubscriptionResponseBody ← decodeBody {} r.body
          return { id, expiryTime := body.expiryTime }

/-! ## Events -/

/-- A request that was not answered in time. -/
inductive TimeoutTarget where
  | createResource (session : SessionKey)
  | patchResource (session : SessionKey)
  | createSubscription (subscription : SubscriptionKey)
  | updateSubscription (subscription : SubscriptionKey)
deriving DecidableEq, Repr

/-- What a transport comes back with. -/
inductive TransportEvent where
  | createResult (session : SessionKey) (result : Except ProblemDetails SessionCreated)
  | patchResult (session : SessionKey) (result : Except ProblemDetails Unit)
  | subscriptionCreated (subscription : SubscriptionKey)
      (result : Except ProblemDetails SubscriptionAck)
  | subscriptionUpdated (subscription : SubscriptionKey)
      (result : Except ProblemDetails SubscriptionAck)
  | timeout (target : TimeoutTarget)

end MbsClient
