import MbsClient.Codec.Outline
import MbsClient.Json.Parser
import MbsClient.Plan
import MbsClient.Scenario

/-!
# Commands — what the command line can be asked for, and what it prints

`plan` prints the requests that bring the sessions of a scenario up, `diff` the patch between two
JSON documents, `version` what the program is called. A command is given how to read files; it
prints nothing unless it succeeds.
-/

namespace MbsClient

open Text

/-- The kinds of document that can be compared. -/
inductive DocumentKind where
  | session
  | subscription
  | mediaComponent
  | qos
deriving DecidableEq, Repr

inductive Command where
  /-- A configuration file comes before the settings of the scenario. -/
  | plan (config : Option String) (scenario : String) (acknowledge : Bool)
  | diff (kind : DocumentKind) (old new : String)
  | version
deriving DecidableEq, Repr

/-- Why a command fails. -/
inductive CommandFault where
  | scenarioUnreadable (path : String)
  | scenario (fault : ScenarioFault)
  | configuration (path : String)
  | documentUnreadable (path : String)
  | document (path : String)
deriving DecidableEq, Repr

def CommandFault.message : CommandFault → String
  | .scenarioUnreadable path => s!"Failed to read scenario {path}"
  | .scenario fault => fault.message
  | .configuration path => s!"Failed to load configuration {path}"
  | .documentUnreadable path => s!"Failed to read {path}"
  | .document path => s!"Invalid document {path}"

namespace Command

/-! ## Plans -/

/-- The requests of a plan, each under the number of its round. -/
def planLines (p : Plan) : List String :=
  p.requests.flatMap fun (round, request) => ["# round " ++ Decimal.text round, request.text]

/-- How a session has come out. -/
def sessionLine (name : String) (s : Session) : String :=
  "# " ++ name ++ ": " ++ s.state.text ++ " resource=" ++ s.resourceId?.getD "-"

def runPlan (read : String → Option String) (config : Option String) (scenario : String)
    (acknowledge : Bool) : Except CommandFault (List String) := do
  let text ← match read scenario with
    | some text => .ok text
    | none => .error (.scenarioUnreadable scenario)
  let s ← (Scenario.parse text).mapError .scenario
  let config ← match config with
    | some path =>
        match (read path).map ClientConfig.ofYaml with
        | some (.ok config) => .ok config
        | _ => .error (.configuration path)
    | none => s.config.mapError .scenario
  let (keys, c) ← (s.load { config }).mapError .scenario
  let p := Plan.ofContext acknowledge c
  let outcome := keys.filterMap fun (name, key) => (p.context.session? key).map (sessionLine name)
  return planLines p ++ outcome

/-! ## Differences -/

/-- The value of a JSON file; `null` is no value. -/
def document (α : Type) [Decode α] (read : String → Option String) (path : String) :
    Except CommandFault (Option α) :=
  match read path with
  | none => .error (.documentUnreadable path)
  | some text =>
      match (Json.outline? text).map decode with
      | some (.ok value) => .ok value
      | _ => .error (.document path)

/-- The patch between two files, a line for each step. -/
def difference (α : Type) [Decode α] [Encode α] [Diff α] (read : String → Option String)
    (old new : String) : Except CommandFault (List String) := do
  let old ← document α read old
  let new ← document α read new
  return (Diff.snapshots old new).map fun op => op.encode.compact

/-! ## Running -/

/-- The name and the version of the program. -/
def versionLine : String := "nextgcore-mbsmf-cli 0.1.0"

/-- What a command prints. -/
def run (read : String → Option String) : Command → Except CommandFault (List String)
  | .plan config scenario acknowledge => runPlan read config scenario acknowledge
  | .diff .session old new => difference MbsSession read old new
  | .diff .subscription old new => difference MbsSessionSubscription read old new
  | .diff .mediaComponent old new => difference MbsMediaComp read old new
  | .diff .qos old new => difference MbsQosReq read old new
  | .version => .ok [versionLine]

/-- The files that a command reads. -/
def files : Command → List String
  | .plan config scenario _ => scenario :: config.toList
  | .diff _ old new => [old, new]
  | .version => []

end Command

end MbsClient
