import MbsClient.Proofs.Session.Move

/-!
# Flat sessions — every part of a session set on its own

What the MB-SMF holds of a session can also be kept as parts that are there or not, each set and
reset by itself, next to a state that says how far the MB-SMF knows of the session. Nothing in such
a record excludes that the parts and the state contradict each other. A subscription is found as the
first one with its key, and only that one is changed or taken out.
-/

namespace MbsClient

/-- How far the MB-SMF knows of a session, and its end. -/
inductive Phase where
  | unregistered
  | createPending
  | registered
  | pendingDelete
  | gone
deriving DecidableEq, Repr

/-- Whether a session is kept after a move. -/
inductive Disposition where
  | keep
  | destroy
deriving DecidableEq, Repr

structure FlatSession where
  key : SessionKey
  data : MbsSession := {}
  resourceId : Option String := none
  phase : Phase := .unregistered
  dirty : Bool := true
  deleted : Bool := false
  /-- The identity that the MB-SMF last acknowledged. -/
  identity : MbsSessionId := {}
  acked : Option MbsSession := none
  /-- The body sent by the outstanding creation. -/
  creating : Option MbsSession := none
  /-- The body that the outstanding patch leads to. -/
  patching : Option MbsSession := none
  /-- The subscription that rides on the outstanding creation. -/
  bundled : Option SubscriptionKey := none
  pendingNew : List Subscription := []
  active : SortedMap String Subscription := .empty
  pendingDelete : List (String × Subscription) := []
  ingressTunAddrs : List TunnelAddress := []
  expirationTime : Option Time.Instant := none
  watchesResults : Bool := false

namespace FlatSession

/-! ## 1. Subscriptions -/

/-- Changes the first subscription of a kind. -/
def modifyFirst (p : Subscription → Bool) (f : Subscription → Subscription) :
    List Subscription → List Subscription
  | [] => []
  | sub :: subs => if p sub then f sub :: subs else sub :: modifyFirst p f subs

/-- The first active subscription of a kind, with its id. -/
def activeWhere? (s : FlatSession) (p : Subscription → Bool) : Option (String × Subscription) :=
  s.active.entries.find? fun entry => p entry.2

/-- Subscriptions of all buckets. -/
def subscriptions (s : FlatSession) : List Subscription :=
  s.pendingNew ++ s.active.values ++ s.pendingDelete.map Prod.snd

/-- Changes the subscription with the key, a new one if there is one. -/
def modifySubscription (s : FlatSession) (key : SubscriptionKey)
    (f : Subscription → Subscription) : FlatSession :=
  if s.pendingNew.any fun sub => sub.key = key then
    { s with pendingNew := modifyFirst (fun sub => sub.key = key) f s.pendingNew }
  else
    match s.activeWhere? fun sub => sub.key = key with
    | some (id, sub) => { s with active := s.active.insert id (f sub) }
    | none => s

def attach (s : FlatSession) (sub : Subscription) : FlatSession :=
  { s with pendingNew := s.pendingNew ++ [{ sub with session := s.key }], dirty := true }

def detach? (s : FlatSession) (key : SubscriptionKey) : Option (Subscription × FlatSession) :=
  match s.pendingNew.find? fun sub => sub.key = key with
  | some sub =>
      some (sub, { s with pendingNew := s.pendingNew.eraseP fun sub => sub.key = key,
                          bundled := if s.bundled = some key then none else s.bundled })
  | none =>
      (s.activeWhere? fun sub => sub.key = key).map fun (id, sub) =>
        (sub, { s with active := s.active.erase id })

def withdraw (s : FlatSession) (key : SubscriptionKey) : FlatSession :=
  match s.detach? key with
  | none => s
  | some (sub, s) =>
      match sub.id with
      | some id =>
          { s with pendingDelete := s.pendingDelete ++ [(id, sub.forgetRemote)], dirty := true }
      | none => s

/-! ## 2. Pushes -/

def create (config : ClientConfig) (s : FlatSession) : FlatSession :=
  let (bundled, pendingNew) :=
    Session.bundleFirst s.data.mbsSessionId config.notificationServers s.pendingNew
  { s with pendingNew, dirty := false, phase := .createPending,
           bundled := bundled.map BundledSubscription.key, creating := some s.data }

/-- The resource has gone, and the subscriptions are new again. -/
def requeue (s : FlatSession) : FlatSession :=
  { s with
    resourceId := none
    pendingNew := s.pendingNew.map Subscription.forgetRemote ++
      s.active.values.map Subscription.forgetRemote
    active := .empty
    pendingDelete := []
    acked := none
    patching := none }

def pushBody (s : FlatSession) : FlatSession :=
  match s.acked, s.resourceId with
  | some acked, some _ =>
      if s.patching.isSome then { s with dirty := true }
      else if (Diff.values acked s.data).isEmpty then s
      else { s with patching := some s.data }
  | _, _ => s

def pushSubscriptions (config : ClientConfig) (s : FlatSession) : FlatSession :=
  match s.resourceId with
  | some _ =>
      { s with
        pendingNew := s.pendingNew.map fun sub =>
          if sub.isDue then sub.sendCreate s.data.mbsSessionId config.notificationServers else sub
        active := s.active.map fun id sub => (Session.pushActive id sub).1
        pendingDelete := [] }
  | none => s

/-- The session goes, and with it what it has. -/
def remove (s : FlatSession) : FlatSession :=
  { s with resourceId := none, phase := .gone, pendingNew := [], active := .empty,
           pendingDelete := [] }

def reconcile (config : ClientConfig) (s : FlatSession) : FlatSession :=
  let s := { s with dirty := false }
  let s := if config.sessionBodyPatch then s.pushBody else s
  s.pushSubscriptions config

def push (config : ClientConfig) (s : FlatSession) : FlatSession × Disposition :=
  if s.deleted then (s.remove, .destroy)
  else
    match s.phase with
    | .unregistered => (if s.dirty then s.create config else s, .keep)
    | .createPending => (s, .keep)
    | _ =>
        if s.data.mbsSessionId != s.identity then (s.requeue.create config, .keep)
        else (if s.dirty then s.reconcile config else s, .keep)

/-! ## 3. Answers -/

def settleBundled (s : FlatSession) (key : SubscriptionKey) (id : Option String) : FlatSession :=
  match s.pendingNew.find? fun sub => sub.key = key with
  | none => s
  | some sub =>
      match id with
      | some id =>
          { s with pendingNew := s.pendingNew.eraseP fun sub => sub.key = key,
                   active := s.active.insert id (sub.confirmCreate id none) }
      | none =>
          { s with dirty := true, pendingNew :=
              modifyFirst (fun sub => sub.key = key) Subscription.fail s.pendingNew }

def created (s : FlatSession) (answer : SessionCreated) : FlatSession :=
  let acked := (s.creating.getD s.data).withAllocated answer.tmgi
  let registered := { s with
    data := if s.data.tmgi.isNone then s.data.withAllocated answer.tmgi else s.data
    resourceId := some answer.resourceId
    phase := .registered
    identity := acked.mbsSessionId
    acked := some acked
    creating := none
    bundled := none
    ingressTunAddrs := answer.ingressTunAddrs
    expirationTime := answer.expirationTime }
  let settled :=
    match s.bundled with
    | some key => registered.settleBundled key answer.subscriptionId
    | none => registered
  { settled with
    dirty := settled.dirty || (settled.pendingNew ++ settled.active.values).any Subscription.dirty }

/-- Fails the subscription that rode on the creation. -/
def failBundled (s : FlatSession) : FlatSession :=
  let freed := { s with creating := none, bundled := none }
  match s.bundled with
  | some key => freed.modifySubscription key Subscription.fail
  | none => freed

def refused (s : FlatSession) : FlatSession :=
  { s.failBundled with phase := .unregistered, dirty := true }

def timedOut (s : FlatSession) : FlatSession := { s.failBundled with phase := .gone }

def patched (s : FlatSession) (result : OperationResult) : FlatSession :=
  if s.phase = .registered then
    match s.patching with
    | some body =>
        if result.isOk then { s with acked := some body, patching := none }
        else { s with patching := none, dirty := true }
    | none => s
  else s

def subscriptionCreated (s : FlatSession) (key : SubscriptionKey)
    (result : Except OperationResult SubscriptionAck) : FlatSession :=
  let waits := fun sub : Subscription => sub.key = key && sub.isInFlight
  if s.phase = .registered then
    match s.pendingNew.find? waits, result with
    | none, _ => s
    | some sub, .ok ack =>
        let confirmed := sub.confirmCreate ack.id ack.expiryTime
        { s with pendingNew := s.pendingNew.eraseP waits,
                 active := s.active.insert ack.id confirmed,
                 dirty := s.dirty || confirmed.dirty }
    | some _, .error _ =>
        { s with pendingNew := modifyFirst waits Subscription.fail s.pendingNew, dirty := true }
  else s

def subscriptionUpdated (s : FlatSession) (key : SubscriptionKey)
    (result : Except OperationResult SubscriptionAck) : FlatSession :=
  match s.activeWhere? fun sub => sub.key = key && sub.isInFlight, result with
  | none, _ => s
  | some (id, sub), .ok ack =>
      { s with active := s.active.insert id (sub.confirm ack.expiryTime),
               dirty := s.dirty || sub.dirty }
  | some (id, sub), .error _ =>
      { s with active := s.active.insert id sub.fail, dirty := true }

/-! ## 4. Moves -/

def change (s : FlatSession) (c : SessionChange) : FlatSession :=
  if c.isIdle s.data then s
  else
    match s.data.change c with
    | .ok data => { s with data, dirty := true }
    | .error _ => s

def markDeleted (s : FlatSession) : FlatSession :=
  { s with deleted := true, dirty := true,
           phase := if s.phase = .gone then .gone else .pendingDelete }

def modify (s : FlatSession) (key : SubscriptionKey) (changes : List SubscriptionChange) :
    FlatSession :=
  if (s.pendingNew ++ s.active.values).any fun sub => sub.key = key then
    { s.modifySubscription key fun sub =>
        { changes.foldl Subscription.change sub with dirty := true } with dirty := true }
  else s

/-- An answer to a creation, or none in time, counts only for a session that waits for it. -/
def moved (s : FlatSession) : Session.Move → FlatSession × Disposition
  | .watch => ({ s with watchesResults := true }, .keep)
  | .change c => (s.change c, .keep)
  | .markDeleted => (s.markDeleted, .keep)
  | .takeOver sub => (s.attach sub.forgetRemote, .keep)
  | .letGo key => (((s.detach? key).map Prod.snd).getD s, .keep)
  | .withdraw key => (s.withdraw key, .keep)
  | .modify key changes => (s.modify key changes, .keep)
  | .push config => s.push config
  | .release => (s, .destroy)
  | .created answer => (if s.phase = .createPending then s.created answer else s, .keep)
  | .refused _ => (if s.phase = .createPending then s.refused else s, .keep)
  | .timedOut => if s.phase = .createPending then (s.timedOut, .destroy) else (s, .keep)
  | .patched result => (s.patched result, .keep)
  | .subscriptionCreated key result => (s.subscriptionCreated key result, .keep)
  | .subscriptionUpdated key result => (s.subscriptionUpdated key result, .keep)

end FlatSession

end MbsClient
