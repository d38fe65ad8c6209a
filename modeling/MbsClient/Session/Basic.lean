import MbsClient.Answer
import MbsClient.Subscription

/-!
# Sessions — a session record, what the MB-SMF holds of it, and its subscriptions

A session keeps its status subscriptions in three buckets. Those the MB-SMF does not know yet wait
in `pendingNew`; the other two, `active` and `pendingDelete`, belong to the resource, because they
go with it.
-/

namespace MbsClient

open Time

/-- What the MB-SMF holds for a session. -/
structure Resource where
  id : String
  /-- The body that the MB-SMF has acknowledged. -/
  acked : MbsSession
  /-- The body that the outstanding patch leads to. -/
  patching : Option MbsSession := none
  /-- Registered subscriptions under their ids. -/
  active : SortedMap String Subscription := .empty
  /-- Subscriptions that the next push deletes, with the ids they had. -/
  pendingDelete : List (String × Subscription) := []

/-- How far the MB-SMF knows of a session. -/
inductive Remote where
  /-- Not at all. -/
  | absent
  /-- Asked to create it, with this body and maybe a subscription. -/
  | creating (body : MbsSession) (bundled : Option SubscriptionKey)
  | registered (resource : Resource)

namespace Remote

def resource? : Remote → Option Resource
  | .registered resource => some resource
  | _ => none

/-- The subscription that rides on the outstanding creation. -/
def bundled? : Remote → Option SubscriptionKey
  | .creating _ bundled => bundled
  | _ => none

/-- Takes a subscription off the outstanding creation. -/
def unbundle (key : SubscriptionKey) : Remote → Remote
  | .creating body bundled => .creating body (bundled.filter (· != key))
  | remote => remote

def mapResource (f : Resource → Resource) : Remote → Remote
  | .registered resource => .registered (f resource)
  | remote => remote

end Remote

structure Session where
  key : SessionKey
  data : MbsSession := {}
  remote : Remote := .absent
  /-- The MB-SMF may not know all of it. -/
  dirty : Bool := true
  /-- The next push takes it down. -/
  deleted : Bool := false
  /-- The identity that the MB-SMF last acknowledged. -/
  identity : MbsSessionId := {}
  /-- Subscriptions that the MB-SMF does not know yet, oldest first. -/
  pendingNew : List Subscription := []
  /-- Where the MB-SMF takes user data in. -/
  ingressTunAddrs : List TunnelAddress := []
  /-- When the MB-SMF lets the TMGI expire. -/
  expirationTime : Option Instant := none
  /-- The application is told how requests went. -/
  watchesResults : Bool := false

/-- The life of a session. -/
inductive SessionState where
  /-- The MB-SMF does not know of it. -/
  | unregistered
  | createPending
  | registered
  | pendingDelete
deriving DecidableEq, Repr

def SessionState.text : SessionState → String
  | .unregistered => "LOCAL"
  | .createPending => "CREATE_PENDING"
  | .registered => "REGISTERED"
  | .pendingDelete => "PENDING_DELETE"

/-- Where a session keeps a subscription. -/
inductive Bucket where
  | pendingNew
  | active
  | pendingDelete
deriving DecidableEq, Repr

namespace Session

/-- A deletion hides how far the MB-SMF knows of the session. -/
def state (s : Session) : SessionState :=
  if s.deleted then .pendingDelete
  else
    match s.remote with
    | .absent => .unregistered
    | .creating .. => .createPending
    | .registered _ => .registered

def resource? (s : Session) : Option Resource := s.remote.resource?

def resourceId? (s : Session) : Option String := s.resource?.map Resource.id

/-- The body that the MB-SMF has acknowledged. -/
def acknowledged? (s : Session) : Option MbsSession := s.resource?.map Resource.acked

/-- Subscriptions under the ids the MB-SMF has given them. -/
def active (s : Session) : SortedMap String Subscription :=
  match s.remote with
  | .registered resource => resource.active
  | _ => .empty

def pendingDelete (s : Session) : List (String × Subscription) :=
  match s.remote with
  | .registered resource => resource.pendingDelete
  | _ => []

/-- Subscriptions that are wanted: new ones, then registered ones in order of id. -/
def subscriptions (s : Session) : List Subscription := s.pendingNew ++ s.active.values

def subscription? (s : Session) (key : SubscriptionKey) : Option Subscription :=
  s.subscriptions.find? fun sub => sub.key = key

/-- The keys of the subscriptions of all buckets. -/
def subscriptionKeys (s : Session) : List SubscriptionKey :=
  s.subscriptions.map Subscription.key ++ s.pendingDelete.map fun entry => entry.2.key

def bucketOf (s : Session) (key : SubscriptionKey) : Option Bucket :=
  if s.pendingNew.any fun sub => sub.key = key then some .pendingNew
  else if s.active.values.any fun sub => sub.key = key then some .active
  else if s.pendingDelete.any fun entry => entry.2.key = key then some .pendingDelete
  else none

/-- Tells the application how a request went. -/
def report (s : Session) (result : OperationResult) : List Call :=
  if s.watchesResults then [.session s.key result] else []

/-! ## Subscriptions come and go -/

/-- Changes the subscription with the given key among some. -/
def modifyIn (key : SubscriptionKey) (f : Subscription → Subscription)
    (subs : List Subscription) : List Subscription :=
  subs.map fun sub => if sub.key = key then f sub else sub

/-- Changes a subscription that is wanted. -/
def modifySubscription (s : Session) (key : SubscriptionKey) (f : Subscription → Subscription) :
    Session :=
  { s with
    pendingNew := modifyIn key f s.pendingNew
    remote := s.remote.mapResource fun r =>
      { r with active := r.active.map fun _ sub => if sub.key = key then f sub else sub } }

/-- Takes a subscription over as a new one. -/
def attach (s : Session) (sub : Subscription) : Session :=
  { s with pendingNew := s.pendingNew ++ [{ sub with session := s.key }], dirty := true }

/-- Lets go of a subscription that is wanted. -/
def detach? (s : Session) (key : SubscriptionKey) : Option (Subscription × Session) :=
  match s.pendingNew.find? fun sub => sub.key = key with
  | some sub =>
      some (sub, { s with pendingNew := s.pendingNew.filter fun sub => sub.key != key,
                          remote := s.remote.unbundle key })
  | none =>
      (s.active.entries.find? fun entry => entry.2.key = key).map fun (id, sub) =>
        (sub, { s with remote := s.remote.mapResource fun r =>
          { r with active := r.active.erase id } })

/-- Withdraws a subscription. A registered one waits to be deleted by the next push; any other is
gone at once. -/
def removeSubscription (s : Session) (key : SubscriptionKey) : Except Error Session :=
  match s.detach? key with
  | none => .error (.subscriptionNotFound key)
  | some (sub, s) =>
      match sub.id with
      | some id => .ok { s with
          remote := s.remote.mapResource fun r =>
            { r with pendingDelete := r.pendingDelete ++ [(id, sub.forgetRemote)] }
          dirty := true }
      | none => .ok s

/-- Marks the session for deletion. -/
def markDeleted (s : Session) : Session := { s with deleted := true, dirty := true }

end Session

end MbsClient
