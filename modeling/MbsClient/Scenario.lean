import MbsClient.ConfigFile
import MbsClient.Context.Basic

/-!
# Scenarios — sessions and subscriptions that an application wants

A scenario is a YAML document: the settings of a client, and sessions by name with their
subscriptions. It is loaded into a context in the order it is written.
-/

namespace MbsClient

/-- Why a scenario cannot be used. -/
inductive ScenarioFault where
  /-- No YAML, or no scenario. -/
  | malformed
  | client
  | session (name : String)
  | subscription (name : String)
deriving DecidableEq, Repr

def ScenarioFault.message : ScenarioFault → String
  | .malformed => "Invalid scenario"
  | .client => "Invalid client section"
  | .session name => s!"Cannot create session '{name}'"
  | .subscription name => s!"Cannot subscribe on session '{name}'"

/-- A session that is wanted. -/
structure ScenarioSession where
  name : String
  session : MbsSession
  subscriptions : List MbsSessionSubscription := []

instance : Decode ScenarioSession where
  decode d := do
    let fields ← Fields.read ["name", "session", "subscriptions"] d
    let name ← fields.member? "name"
    let session ← fields.member? "session"
    let subscriptions ← fields.member? "subscriptions"
    return { name := ← needed name, session := ← needed session,
             subscriptions := subscriptions.getD [] }

structure Scenario where
  /-- The settings of the client. -/
  client : Option Yaml.Value := none
  sessions : List ScenarioSession := []

namespace Scenario

/-- The scenario of a document. The settings are taken as they are, but no key of theirs may occur
twice. -/
def ofNode (n : Yaml.Node) : Decoded Scenario := do
  let fields ← Fields.read ["client", "sessions"] n
  let client ← match fields.given.find? fun m => m.1 = "client" with
    | some (_, settings) =>
        if settings.isNull then .ok none
        else (needed (Yaml.Value.ofStrictNode? settings)).map some
    | none => .ok none
  let sessions ← fields.member? "sessions"
  return { client, sessions := sessions.getD [] }

def parse (text : String) : Except ScenarioFault Scenario :=
  match (Yaml.Node.parse? text).map ofNode with
  | some (.ok scenario) => .ok scenario
  | _ => .error .malformed

/-- The settings of the client, or the defaults. -/
def config (s : Scenario) : Except ScenarioFault ClientConfig :=
  match s.client with
  | some v => (ClientConfig.ofValue v).mapError fun _ => .client
  | none => .ok {}

/-! ## Loading -/

/-- Adds subscriptions to a session. -/
def loadSubscriptions (name : String) (key : SessionKey) :
    List MbsSessionSubscription → Context → Except ScenarioFault Context
  | [], c => .ok c
  | data :: rest, c => do
      let (_, c) ← (c.addSubscription key data).mapError fun _ => .subscription name
      loadSubscriptions name key rest c

/-- Opens sessions with their records and subscriptions; gives their keys by name. -/
def loadSessions : List ScenarioSession → Context →
    Except ScenarioFault (List (String × SessionKey) × Context)
  | [], c => .ok ([], c)
  | entry :: rest, c => do
      let (key, c) ← c.newSession.mapError fun _ => .session entry.name
      let c ← (c.changeSession key (.record entry.session)).mapError fun _ => .session entry.name
      let c ← loadSubscriptions entry.name key entry.subscriptions c
      let (keys, c) ← loadSessions rest c
      return ((entry.name, key) :: keys, c)

/-- Puts the scenario into a context. -/
def load (s : Scenario) (c : Context) :
    Except ScenarioFault (List (String × SessionKey) × Context) :=
  loadSessions s.sessions c

end Scenario

end MbsClient
