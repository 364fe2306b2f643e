import RouteProgramming.Address
import RouteProgramming.Aft
import RouteProgramming.Binary64
import RouteProgramming.Case
import RouteProgramming.Case.Report
import RouteProgramming.Case.Run
import RouteProgramming.Cidr
import RouteProgramming.Client
import RouteProgramming.Client.EntryDraft
import RouteProgramming.Client.Received
import RouteProgramming.Codec
import RouteProgramming.CommandLine
import RouteProgramming.Election
import RouteProgramming.Entry
import RouteProgramming.FileTree
import RouteProgramming.Forwarding
import RouteProgramming.HeldTable
import RouteProgramming.Json
import RouteProgramming.Main
import RouteProgramming.Message
import RouteProgramming.Operation
import RouteProgramming.Parameters
import RouteProgramming.Profile
import RouteProgramming.Profile.Bundled
import RouteProgramming.Profile.Registry
import RouteProgramming.Proofs.Address.Hosts
import RouteProgramming.Proofs.Address.Notation
import RouteProgramming.Proofs.Address.Prefix
import RouteProgramming.Proofs.Address.Text
import RouteProgramming.Proofs.Address.Words
import RouteProgramming.Proofs.Aft.Contents
import RouteProgramming.Proofs.Aft.Integrity
import RouteProgramming.Proofs.Aft.Snapshot
import RouteProgramming.Proofs.Aft.Stranded
import RouteProgramming.Proofs.Case.Repeat
import RouteProgramming.Proofs.Case.Scripts
import RouteProgramming.Proofs.Case.Serving
import RouteProgramming.Proofs.Case.Steps
import RouteProgramming.Proofs.Client.Accounts
import RouteProgramming.Proofs.Client.Alone
import RouteProgramming.Proofs.Client.Exchange
import RouteProgramming.Proofs.Client.Failures
import RouteProgramming.Proofs.Client.Notes
import RouteProgramming.Proofs.Client.Transit
import RouteProgramming.Proofs.Client.Waits
import RouteProgramming.Proofs.Election.Order
import RouteProgramming.Proofs.Forwarding.Lookup
import RouteProgramming.Proofs.Forwarding.Points
import RouteProgramming.Proofs.Forwarding.Programmed
import RouteProgramming.Proofs.Forwarding.Routing
import RouteProgramming.Proofs.Forwarding.Shares
import RouteProgramming.Proofs.Profile.Problems
import RouteProgramming.Proofs.Profile.Resolution
import RouteProgramming.Proofs.Profile.Shapes
import RouteProgramming.Proofs.Responder.Agreement
import RouteProgramming.Proofs.Responder.Answers
import RouteProgramming.Proofs.Responder.Authority
import RouteProgramming.Proofs.Responder.Clearance
import RouteProgramming.Proofs.Responder.Conversation
import RouteProgramming.Proofs.Responder.Election
import RouteProgramming.Proofs.Responder.Flush
import RouteProgramming.Proofs.Responder.Independence
import RouteProgramming.Proofs.Responder.OperationIds
import RouteProgramming.Proofs.Responder.Persistence
import RouteProgramming.Proofs.Responder.Rounds
import RouteProgramming.Proofs.Responder.Service
import RouteProgramming.Proofs.Responder.Solo
import RouteProgramming.Proofs.Responder.Stages
import RouteProgramming.Proofs.Rib.Calls
import RouteProgramming.Proofs.Rib.Cleanup
import RouteProgramming.Proofs.Rib.Clearance
import RouteProgramming.Proofs.Rib.Hardware
import RouteProgramming.Proofs.Rib.History
import RouteProgramming.Proofs.Rib.Integrity
import RouteProgramming.Proofs.Rib.Ledger
import RouteProgramming.Proofs.Rib.Locality
import RouteProgramming.Proofs.Rib.Mirror
import RouteProgramming.Proofs.Rib.Numbering
import RouteProgramming.Proofs.Rib.Ownership
import RouteProgramming.Proofs.Rib.Page
import RouteProgramming.Proofs.Rib.Refinement
import RouteProgramming.Proofs.Rib.Reversal
import RouteProgramming.Proofs.Rib.Siblings
import RouteProgramming.Proofs.Rib.Stale
import RouteProgramming.Proofs.Rib.Steps
import RouteProgramming.Proofs.SchemaPath.Coverage
import RouteProgramming.Proofs.SchemaPath.Grammar
import RouteProgramming.Proofs.Table.Rows
import RouteProgramming.Proofs.Testbed.Addressing
import RouteProgramming.Proofs.Testbed.Delivery
import RouteProgramming.Proofs.Testbed.Frames
import RouteProgramming.Proofs.Testbed.Journal
import RouteProgramming.Proofs.Testbed.Topologies
import RouteProgramming.Proofs.Testbed.Traffic
import RouteProgramming.Proofs.Text.Digits
import RouteProgramming.Proofs.TextFormat.Lines
import RouteProgramming.Proofs.TextFormat.Nesting
import RouteProgramming.Proofs.TextFormat.Phrases
import RouteProgramming.Proofs.TextFormat.Positions
import RouteProgramming.Proofs.TextFormat.Renderings
import RouteProgramming.Proofs.TextFormat.Words
import RouteProgramming.Proofs.Wire.RoundTrip
import RouteProgramming.Responder
import RouteProgramming.Rib
import RouteProgramming.SchemaPath
import RouteProgramming.Suite
import RouteProgramming.Suite.Report
import RouteProgramming.SuiteConfig
import RouteProgramming.SuiteError
import RouteProgramming.Switchboard
import RouteProgramming.Table
import RouteProgramming.Table.Lookup
import RouteProgramming.Telemetry
import RouteProgramming.Testbed
import RouteProgramming.Testbed.Device
import RouteProgramming.Testbed.LinkEnd
import RouteProgramming.Testbed.Tester
import RouteProgramming.Testbed.Topology
import RouteProgramming.Text.Blank
import RouteProgramming.Text.Decimal
import RouteProgramming.Text.Hexadecimal
import RouteProgramming.Text.Hidden
import RouteProgramming.Text.Quoted
import RouteProgramming.Text.Shortest
import RouteProgramming.Text.Span
import RouteProgramming.TextFormat
import RouteProgramming.TextFormat.Lexeme
import RouteProgramming.Timestamp
import RouteProgramming.Toml
import RouteProgramming.Toml.Scalar
import RouteProgramming.Toml.Value
import RouteProgramming.Wire.Entry
import RouteProgramming.Wire.Fault
import RouteProgramming.Wire.FileTree
import RouteProgramming.Wire.Message
import RouteProgramming.Wire.Profile
import RouteProgramming.Wire.Received
import RouteProgramming.Wire.Report
import RouteProgramming.Wire.Rib
import RouteProgramming.Wire.SuiteConfig
import RouteProgramming.Wire.Telemetry
import RouteProgramming.Wire.Testbed
