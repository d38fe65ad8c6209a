import MbsClient.Answer
import MbsClient.Codec.Constant
import MbsClient.Codec.Encode
import MbsClient.Codec.Outline
import MbsClient.Codec.Settled
import MbsClient.Codec.Source
import MbsClient.Command
import MbsClient.CommandLine
import MbsClient.Config
import MbsClient.ConfigFile
import MbsClient.Context.Basic
import MbsClient.Context.Notification
import MbsClient.Context.Transport
import MbsClient.Data.SortedMap
import MbsClient.Endpoint
import MbsClient.Error
import MbsClient.Intent
import MbsClient.Json.Number
import MbsClient.Json.Outline
import MbsClient.Json.Parser
import MbsClient.Json.Printer
import MbsClient.Json.Value
import MbsClient.Main
import MbsClient.Model.BitRate
import MbsClient.Model.CivicAddress
import MbsClient.Model.GeographicArea
import MbsClient.Model.Identifier
import MbsClient.Model.Identity
import MbsClient.Model.Priority
import MbsClient.Model.Problem
import MbsClient.Model.Service
import MbsClient.Model.ServiceArea
import MbsClient.Model.Session
import MbsClient.Model.Subscription
import MbsClient.Model.Walk
import MbsClient.Net.Address
import MbsClient.Number.Binary
import MbsClient.Number.Float
import MbsClient.Number.Shortest
import MbsClient.Patch.Difference
import MbsClient.Patch.Operation
import MbsClient.Patch.Pointer
import MbsClient.Patch.Record
import MbsClient.Patch.Recorder
import MbsClient.Patch.Walk
import MbsClient.Plan
import MbsClient.Proofs.Codec.Map
import MbsClient.Proofs.Codec.Source
import MbsClient.Proofs.Context.Acknowledged
import MbsClient.Proofs.Context.Attribution
import MbsClient.Proofs.Context.Body
import MbsClient.Proofs.Context.Deletion
import MbsClient.Proofs.Context.Echo
import MbsClient.Proofs.Context.Effect
import MbsClient.Proofs.Context.Holders
import MbsClient.Proofs.Context.Identity
import MbsClient.Proofs.Context.InPlace
import MbsClient.Proofs.Context.Independence
import MbsClient.Proofs.Context.Index
import MbsClient.Proofs.Context.Invariant
import MbsClient.Proofs.Context.Kept
import MbsClient.Proofs.Context.Ledger
import MbsClient.Proofs.Context.Lookup
import MbsClient.Proofs.Context.Outstanding
import MbsClient.Proofs.Context.Pending
import MbsClient.Proofs.Context.Pushes
import MbsClient.Proofs.Context.Recreate
import MbsClient.Proofs.Context.Registrations
import MbsClient.Proofs.Context.Releases
import MbsClient.Proofs.Context.Repeat
import MbsClient.Proofs.Context.Resources
import MbsClient.Proofs.Context.Roster
import MbsClient.Proofs.Context.Routing
import MbsClient.Proofs.Context.Run
import MbsClient.Proofs.Context.Script
import MbsClient.Proofs.Context.Shape
import MbsClient.Proofs.Context.Stale
import MbsClient.Proofs.Context.Subscribers
import MbsClient.Proofs.Context.Tmgis
import MbsClient.Proofs.Context.Traffic
import MbsClient.Proofs.Data.Entries
import MbsClient.Proofs.Data.SortedMap
import MbsClient.Proofs.Json.Record
import MbsClient.Proofs.Json.Same
import MbsClient.Proofs.Model.Area
import MbsClient.Proofs.Model.Empty
import MbsClient.Proofs.Model.Identifiers
import MbsClient.Proofs.Model.Multiset
import MbsClient.Proofs.Model.Patching
import MbsClient.Proofs.Model.Rates
import MbsClient.Proofs.Model.Readable
import MbsClient.Proofs.Model.RoundTrip
import MbsClient.Proofs.Model.Telling
import MbsClient.Proofs.Model.Texts
import MbsClient.Proofs.Model.Unchanged
import MbsClient.Proofs.Model.Walk
import MbsClient.Proofs.Net.Address
import MbsClient.Proofs.Net.Endpoint
import MbsClient.Proofs.Net.Location
import MbsClient.Proofs.Number.Exact
import MbsClient.Proofs.Patch.Difference
import MbsClient.Proofs.Patch.Edits
import MbsClient.Proofs.Patch.Empty
import MbsClient.Proofs.Patch.Fates
import MbsClient.Proofs.Patch.Keyed
import MbsClient.Proofs.Patch.Lawful
import MbsClient.Proofs.Patch.Paths
import MbsClient.Proofs.Patch.Pointer
import MbsClient.Proofs.Patch.Removal
import MbsClient.Proofs.Patch.Replacement
import MbsClient.Proofs.Patch.Unchanged
import MbsClient.Proofs.Patch.Walk
import MbsClient.Proofs.Plan.Load
import MbsClient.Proofs.Plan.Settles
import MbsClient.Proofs.Plan.Simulated
import MbsClient.Proofs.Session.Agreement
import MbsClient.Proofs.Session.Awaiting
import MbsClient.Proofs.Session.Body
import MbsClient.Proofs.Session.BringUp
import MbsClient.Proofs.Session.Creation
import MbsClient.Proofs.Session.Filing
import MbsClient.Proofs.Session.Flat
import MbsClient.Proofs.Session.Freed
import MbsClient.Proofs.Session.Holdings
import MbsClient.Proofs.Session.Identity
import MbsClient.Proofs.Session.Labels
import MbsClient.Proofs.Session.Move
import MbsClient.Proofs.Session.Origins
import MbsClient.Proofs.Session.Outstanding
import MbsClient.Proofs.Session.Pending
import MbsClient.Proofs.Session.Repeat
import MbsClient.Proofs.Session.Shape
import MbsClient.Proofs.Session.Simulation
import MbsClient.Proofs.Session.Spared
import MbsClient.Proofs.Session.Stale
import MbsClient.Proofs.Session.Subscribers
import MbsClient.Proofs.Session.Traffic
import MbsClient.Proofs.Text.Blank
import MbsClient.Proofs.Text.Decimal
import MbsClient.Proofs.Text.Hex
import MbsClient.Proofs.Time.Calendar
import MbsClient.Proofs.Time.Instant
import MbsClient.Request
import MbsClient.Scenario
import MbsClient.Session.Answered
import MbsClient.Session.Basic
import MbsClient.Session.Change
import MbsClient.Session.Push
import MbsClient.Simulator
import MbsClient.Subscription
import MbsClient.Text.Blank
import MbsClient.Text.Decimal
import MbsClient.Text.Hex
import MbsClient.Text.Split
import MbsClient.Time.Calendar
import MbsClient.Time.Instant
import MbsClient.Yaml.Cursor
import MbsClient.Yaml.Node
import MbsClient.Yaml.Plain
import MbsClient.Yaml.Scalar
import MbsClient.Yaml.Token
import MbsClient.Yaml.Value
