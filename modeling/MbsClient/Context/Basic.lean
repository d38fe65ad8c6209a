import MbsClient.Session.Answered

/-!
# Contexts — the sessions of one client

A context hands out keys, finds the session that holds a subscription, and gathers intents for the
transport. An operation that fails gives no new context.
-/

namespace MbsClient

structure Context where
  config : ClientConfig := {}
  sessions : SortedMap SessionKey Session := .empty
  /-- Sessions by the TMGI that the MB-SMF acknowledged. -/
  tmgiOwners : SortedMap Tmgi SessionKey := .empty
  /-- The session that holds a subscription. -/
  owners : SortedMap SubscriptionKey SessionKey := .empty
  nextSession : SessionKey := 1
  nextSubscription : SubscriptionKey := 1
  /-- Intents that no transport has taken yet, oldest first. -/
  outbox : List Intent := []

namespace Context

def emit (c : Context) (intents : List Intent) : Context :=
  { c with outbox := c.outbox ++ intents }

/-- Hands the intents over to the transport. -/
def takeIntents (c : Context) : List Intent × Context := (c.outbox, { c with outbox := [] })

/-! ## Sessions -/

def session? (c : Context) (key : SessionKey) : Option Session := c.sessions.get? key

def session (c : Context) (key : SessionKey) : Except Error Session :=
  match c.session? key with
  | some s => .ok s
  | none => .error (.sessionNotFound key)

/-- Puts a session back under its key. -/
def store (c : Context) (s : Session) : Context :=
  { c with sessions := c.sessions.insert s.key s }

/-- Opens a session with an empty record. -/
def newSession (c : Context) : Except Error (SessionKey × Context) :=
  if c.config.maxSessions ≤ c.sessions.size then .error (.tooManySessions c.config.maxSessions)
  else
    let key := c.nextSession
    .ok (key, { c.store { key } with nextSession := key + 1 })

/-- Tells the application of the results of a session from now on. -/
def watchSession (c : Context) (key : SessionKey) : Except Error Context := do
  return c.store { ← c.session key with watchesResults := true }

def changeSession (c : Context) (key : SessionKey) (change : SessionChange) :
    Except Error Context := do
  return c.store (← (← c.session key).change change)

/-- Marks a session for deletion; the next push takes it down. -/
def deleteSession (c : Context) (key : SessionKey) : Except Error Context := do
  return c.store (← c.session key).markDeleted

/-- Drops a session and whatever leads to it. -/
def destroy (c : Context) (key : SessionKey) : Context :=
  { c with
    sessions := c.sessions.erase key
    tmgiOwners := c.tmgiOwners.filter fun _ owner => owner != key
    owners := c.owners.filter fun _ owner => owner != key }

/-- Drops all sessions; what the MB-SMF holds of them is removed. -/
def close (c : Context) : Context :=
  { c.emit (c.sessions.values.flatMap Session.release) with
    sessions := .empty, tmgiOwners := .empty, owners := .empty }

/-- The session that the MB-SMF knows by a TMGI. -/
def sessionByTmgi? (c : Context) (tmgi : Tmgi) : Option Session :=
  (c.tmgiOwners.get? tmgi).bind c.session?

/-- The oldest session whose record has an SSM. -/
def sessionBySsm? (c : Context) (ssm : Ssm) : Option Session :=
  c.sessions.values.find? fun s => s.data.ssm = some ssm

def sessionByResourceId? (c : Context) (id : String) : Option Session :=
  c.sessions.values.find? fun s => s.resourceId? = some id

/-! ## Subscriptions -/

/-- The session that holds a subscription, in any bucket. -/
def owner (c : Context) (key : SubscriptionKey) : Except Error SessionKey :=
  match c.owners.get? key with
  | some owner => .ok owner
  | none => .error (.subscriptionNotFound key)

/-- Forgets who held the subscriptions that a session does not hold any more. -/
def reindex (c : Context) (s : Session) : Context :=
  { c with owners := c.owners.filter fun sub owner =>
      owner != s.key || s.subscriptionKeys.contains sub }

/-- A subscription that is wanted. -/
def subscription? (c : Context) (key : SubscriptionKey) : Option Subscription := do
  let owner ← c.owners.get? key
  (← c.session? owner).subscription? key

/-- Adds a new subscription to a session. -/
def addSubscription (c : Context) (session : SessionKey) (data : MbsSessionSubscription) :
    Except Error (SubscriptionKey × Context) := do
  let s ← c.session session
  let key := c.nextSubscription
  return (key, { c.store (s.attach (.new key session data)) with
    nextSubscription := key + 1, owners := c.owners.insert key session })

/-- Makes local changes to a subscription that is wanted; it and its session are dirty. -/
def updateSubscription (c : Context) (key : SubscriptionKey) (changes : List SubscriptionChange) :
    Except Error Context := do
  let s ← c.session (← c.owner key)
  if (s.subscription? key).isNone then throw (.subscriptionNotFound key)
  let s := s.modifySubscription key fun sub =>
    { changes.foldl Subscription.change sub with dirty := true }
  return c.store { s with dirty := true }

/-- Withdraws a subscription. -/
def removeSubscription (c : Context) (key : SubscriptionKey) : Except Error Context := do
  let s ← (← c.session (← c.owner key)).removeSubscription key
  let c := c.store s
  return if s.subscriptionKeys.contains key then c else { c with owners := c.owners.erase key }

/-- Moves a subscription to another session. If the MB-SMF knows it, it is deleted there and will
be created again. -/
def transferSubscription (c : Context) (key : SubscriptionKey) (target : SessionKey) :
    Except Error Context := do
  let holder ← c.session (← c.owner key)
  let _ ← c.session target
  match holder.detach? key with
  | none => throw (.subscriptionNotFound key)
  | some (sub, holder) =>
      let c := (c.emit (sub.id.toList.map .deleteSubscription)).store holder
      let c := c.store ((← c.session target).attach sub.forgetRemote)
      return { c with owners := c.owners.insert key target }

end Context

end MbsClient
