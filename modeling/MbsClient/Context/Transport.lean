import MbsClient.Context.Basic

/-!
# Transport — pushing sessions and taking in what the transport comes back with

An answer that nobody waits for any more changes no session. What a success has created at the
MB-SMF all the same is removed there.
-/

namespace MbsClient

namespace Context

/-- Reconciles one session with the MB-SMF. -/
def push (c : Context) (key : SessionKey) : Except Error Context := do
  match (← c.session key).push c.config with
  | (some s, intents) => return ((c.store s).emit intents).reindex s
  | (none, intents) => return (c.emit intents).destroy key

/-- Reconciles every session, oldest first. -/
def pushAll (c : Context) : Context :=
  c.sessions.keys.foldl (fun c key => (c.push key).toOption.getD c) c

/-! ## Events -/

/-- What an answer changes, and what the application is told. -/
abbrev Outcome := Context × List Call

/-- A session is found by the TMGI that the MB-SMF acknowledged last. -/
def indexTmgi (c : Context) (s : Session) : Context :=
  match s.identity.tmgi with
  | some tmgi =>
      { c with tmgiOwners := (c.tmgiOwners.filter fun _ owner => owner != s.key).insert tmgi s.key }
  | none => c

/-- Removes what was created for a session that does not wait for it. -/
def removeOrphan (key : SessionKey) : Except ProblemDetails SessionCreated → List Intent
  | .ok created =>
      .removeResource key created.resourceId ::
        created.subscriptionId.toList.map .deleteSubscription
  | .error _ => []

def sessionCreated (c : Context) (key : SessionKey)
    (result : Except ProblemDetails SessionCreated) : Outcome :=
  match c.session? key with
  | none => (c.emit (removeOrphan key result), [])
  | some s =>
      match s.waitingFor? with
      | none => (c.emit (removeOrphan key result), [])
      | some (body, bundled) =>
          let (s, calls) := match result with
            | .ok answer => s.created body bundled answer
            | .error problem => s.refused bundled problem
          (((c.store s).indexTmgi s).reindex s, calls)

/-- A session whose creation times out is gone. -/
def creationTimedOut (c : Context) (key : SessionKey) : Outcome :=
  match (c.session? key).bind fun s => s.waitingFor?.map fun w => s.timedOut w.2 with
  | some calls => (c.destroy key, calls)
  | none => (c, [])

def sessionPatched (c : Context) (key : SessionKey) (result : OperationResult) : Outcome :=
  match c.session? key with
  | some s =>
      let (s, calls) := s.patched result
      (c.store s, calls)
  | none => (c, [])

def subscriptionCreated (c : Context) (key : SubscriptionKey)
    (result : Except OperationResult SubscriptionAck) : Outcome :=
  match ((c.owners.get? key).bind c.session?).bind (·.subscriptionCreated? key result) with
  | some (s, calls) => (c.store s, calls)
  | none =>
      match result with
      | .ok ack => (c.emit [.deleteSubscription ack.id], [])
      | .error _ => (c, [])

def subscriptionUpdated (c : Context) (key : SubscriptionKey)
    (result : Except OperationResult SubscriptionAck) : Outcome :=
  match (c.owners.get? key).bind c.session? with
  | some s =>
      let (s, calls) := s.subscriptionUpdated key result
      (c.store s, calls)
  | none => (c, [])

/-- Takes in what the transport comes back with. -/
def handle (c : Context) : TransportEvent → Outcome
  | .createResult session result => c.sessionCreated session result
  | .patchResult session (.ok ()) => c.sessionPatched session .ok
  | .patchResult session (.error problem) => c.sessionPatched session (.refused problem)
  | .subscriptionCreated sub result => c.subscriptionCreated sub (result.mapError .refused)
  | .subscriptionUpdated sub result => c.subscriptionUpdated sub (result.mapError .refused)
  | .timeout (.createResource session) => c.creationTimedOut session
  | .timeout (.patchResource session) => c.sessionPatched session .timedOut
  | .timeout (.createSubscription sub) => c.subscriptionCreated sub (.error .timedOut)
  | .timeout (.updateSubscription sub) => c.subscriptionUpdated sub (.error .timedOut)

end Context

end MbsClient
