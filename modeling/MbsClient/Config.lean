import MbsClient.Codec.Encode
import MbsClient.Codec.Source
import MbsClient.Text.Split

/-!
# Configuration of a client

What a context is set up with: how many sessions it may hold, whether changed session bodies are
sent, and where notifications are received.
-/

namespace MbsClient

/-- A local server that receives notifications. -/
structure NotificationServer where
  /-- What the URLs of notifications start with. -/
  apiRoot : String
deriving DecidableEq, Repr

namespace NotificationServer

instance : Encode NotificationServer where
  encode s := .record [("api_root", some (encode s.apiRoot))]

instance : Decode NotificationServer where
  decode d := do
    let fields ← Fields.read ["api_root"] d
    let apiRoot ← fields.member? "api_root"
    return ⟨← needed apiRoot⟩

/-- Whether the root is an absolute HTTP URL. -/
def isHttp (s : NotificationServer) : Bool :=
  (Text.afterStart? "http://".toList s.apiRoot.toList).isSome ||
    (Text.afterStart? "https://".toList s.apiRoot.toList).isSome

end NotificationServer

structure ClientConfig where
  maxSessions : Nat := 256
  /-- Changed session bodies are sent as patches; else they are not sent. -/
  sessionBodyPatch : Bool := false
  notificationServers : List NotificationServer := []
deriving DecidableEq, Repr, Inhabited

namespace ClientConfig

instance : Encode ClientConfig where
  encode c := .record [("max_sessions", some (.ofNat c.maxSessions)),
    ("session_body_patch", some (encode c.sessionBodyPatch)),
    ("notification_servers", some (encode c.notificationServers))]

/-- Every member may be missing. -/
instance : Decode ClientConfig where
  decode d := do
    let fields ← Fields.read ["max_sessions", "session_body_patch", "notification_servers"] d
    let maxSessions : Option UInt64 ← fields.member? "max_sessions"
    let sessionBodyPatch ← fields.member? "session_body_patch"
    let notificationServers ← fields.member? "notification_servers"
    let unset : ClientConfig := {}
    return { maxSessions := (maxSessions.map UInt64.toNat).getD unset.maxSessions,
             sessionBodyPatch := sessionBodyPatch.getD unset.sessionBodyPatch,
             notificationServers := notificationServers.getD unset.notificationServers }

/-- The first thing that is not allowed. -/
def fault? (c : ClientConfig) : Option ConfigFault :=
  if c.maxSessions = 0 then some .noSessions
  else (c.notificationServers.find? fun s => !s.isHttp).map fun s => .apiRoot s.apiRoot

/-- The configuration itself, if all of it is allowed. -/
def validate (c : ClientConfig) : Except Error ClientConfig :=
  match c.fault? with
  | some fault => .error (.config fault)
  | none => .ok c

end ClientConfig

end MbsClient
