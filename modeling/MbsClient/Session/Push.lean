import MbsClient.Session.Change

/-!
# Pushing — the requests that bring the MB-SMF in step with a session

1. A deleted session is removed and gone.
2. A session that the MB-SMF does not know is created, with its first new subscription.
3. A session whose identity is not the acknowledged one is removed and created anew.
4. Of any other session that is dirty, the changed body is sent if that is configured, then what
   has changed about its subscriptions.
-/

namespace MbsClient

namespace Session

/-- The request that takes the resource of the session down, if it has one. -/
def release (s : Session) : List Intent :=
  match s.remote with
  | .registered r => [.removeResource s.key r.id]
  | _ => []

/-- Whether the MB-SMF knows the session by another identity. -/
def identityChanged (s : Session) : Bool := s.data.mbsSessionId != s.identity

/-! ## Creation -/

/-- Sends the first subscription that is due along with a creation. -/
def bundleFirst (sessionId : MbsSessionId) (servers : List NotificationServer) :
    List Subscription → Option BundledSubscription × List Subscription
  | [] => (none, [])
  | sub :: rest =>
      if sub.isDue then
        let sent := sub.sendCreate sessionId servers
        (some ⟨sent.key, sent.data⟩, sent :: rest)
      else
        let (bundled, rest) := bundleFirst sessionId servers rest
        (bundled, sub :: rest)

/-- Asks for the session to be created as it is now. -/
def create (config : ClientConfig) (s : Session) : Session × Intent :=
  let (bundled, pendingNew) :=
    bundleFirst s.data.mbsSessionId config.notificationServers s.pendingNew
  ({ s with pendingNew, dirty := false,
            remote := .creating s.data (bundled.map BundledSubscription.key) },
    .createResource s.key s.data bundled)

/-- All subscriptions are new again, behind those that still are; the ones to be deleted go with
the resource. -/
def requeue (s : Session) : Session :=
  { s with pendingNew := s.subscriptions.map Subscription.forgetRemote, remote := .absent }

/-! ## Reconciliation -/

/-- The patch to the current body. While a patch is outstanding the session stays dirty. -/
def pushBody (s : Session) (r : Resource) : Session × Resource × List Intent :=
  match r.patching with
  | some _ => ({ s with dirty := true }, r, [])
  | none =>
      match Diff.values r.acked s.data with
      | [] => (s, r, [])
      | ops => (s, { r with patching := some s.data }, [.patchResource s.key r.id ops])

/-- A new subscription that is due is created. -/
def pushNew (config : ClientConfig) (s : Session) (r : Resource) (sub : Subscription) :
    Subscription × List Intent :=
  if sub.isDue then
    let sent := sub.sendCreate s.data.mbsSessionId config.notificationServers
    (sent, [.createSubscription s.key sub.key r.id sent.data])
  else (sub, [])

/-- A registered subscription that is due is changed; it may turn out that nothing differs. -/
def pushActive (id : String) (sub : Subscription) : Subscription × List Intent :=
  if sub.isDue then
    match sub.pendingOps with
    | [] => ({ sub with dirty := false }, [])
    | ops => (sub.sendUpdate, [.updateSubscription sub.key id ops])
  else (sub, [])

/-- New subscriptions first, then registered ones in order of id, then those to be deleted. -/
def pushSubscriptions (config : ClientConfig) (s : Session) (r : Resource) :
    Session × List Intent :=
  let new := s.pendingNew.map (s.pushNew config r)
  let active := r.active.map pushActive
  let resource := { r with active := active.map fun _ pushed => pushed.1, pendingDelete := [] }
  ({ s with pendingNew := new.map Prod.fst, remote := .registered resource },
    new.flatMap Prod.snd ++ active.values.flatMap Prod.snd ++
      r.pendingDelete.map fun (id, _) => .deleteSubscription id)

/-- Sends what a dirty session with an acknowledged identity has to send. -/
def reconcile (config : ClientConfig) (s : Session) (r : Resource) : Session × List Intent :=
  let s := { s with dirty := false }
  let (s, r, bodyIntents) := if config.sessionBodyPatch then s.pushBody r else (s, r, [])
  let (s, intents) := s.pushSubscriptions config r
  (s, bodyIntents ++ intents)

/-- One step of reconciliation: the session, unless it is gone, and the requests to send. -/
def push (config : ClientConfig) (s : Session) : Option Session × List Intent :=
  if s.deleted then (none, s.release)
  else
    match s.remote with
    | .absent =>
        if s.dirty then
          let (s, intent) := s.create config
          (some s, [intent])
        else (some s, [])
    | .creating .. => (some s, [])
    | .registered r =>
        if s.identityChanged then
          let (created, intent) := s.requeue.create config
          (some created, s.release ++ [intent])
        else if s.dirty then
          let (s, intents) := s.reconcile config r
          (some s, intents)
        else (some s, [])

end Session

end MbsClient
