import WorkerBridge.Text.Blank
import WorkerBridge.Text.Quoted
import WorkerBridge.Text.Unprintable
import WorkerBridge.Decimal.Natural
import WorkerBridge.Decimal.Binary64
import WorkerBridge.TextMap
import WorkerBridge.Json.Number
import WorkerBridge.Json.Basic
import WorkerBridge.Json.Printer
import WorkerBridge.Json.Parser
import WorkerBridge.Json.Shape
import WorkerBridge.Toml.Scalar
import WorkerBridge.Toml.Quoted
import WorkerBridge.Toml.Table
import WorkerBridge.Toml.Parser
import WorkerBridge.Frame
import WorkerBridge.Position
import WorkerBridge.Diagnostic
import WorkerBridge.Lookup
import WorkerBridge.Job.Kind
import WorkerBridge.Job.Request
import WorkerBridge.Job.Basic
import WorkerBridge.Failure
import WorkerBridge.Response
import WorkerBridge.Settings
import WorkerBridge.Settings.Expansion
import WorkerBridge.Settings.File
import WorkerBridge.Queue
import WorkerBridge.InFlight
import WorkerBridge.Event
import WorkerBridge.Documents
import WorkerBridge.Engine.Basic
import WorkerBridge.Engine.Step
import WorkerBridge.Errand
import WorkerBridge.Startup
import WorkerBridge.Link
import WorkerBridge.Site
import WorkerBridge.Rehearsal.Blob
import WorkerBridge.Rehearsal.Script
import WorkerBridge.Rehearsal.Shell
import WorkerBridge.Rehearsal.Exchange
import WorkerBridge.Rehearsal.World
import WorkerBridge.Rehearsal.Turns
import WorkerBridge.Rehearsal.Clock
import WorkerBridge.Rehearsal.Scene
import WorkerBridge.Rehearsal.Trial
import WorkerBridge.Rehearsal.Program
import WorkerBridge.Rehearsal.Session
import WorkerBridge.Console.Arguments
import WorkerBridge.Console.Run
import WorkerBridge.Main
import WorkerBridge.Proofs.History
import WorkerBridge.Proofs.Turns
import WorkerBridge.Proofs.Lifecycle
import WorkerBridge.Proofs.Accounts
import WorkerBridge.Proofs.Provenance
import WorkerBridge.Proofs.Retirement
import WorkerBridge.Proofs.Answers
import WorkerBridge.Proofs.TextMap
import WorkerBridge.Proofs.Reports
import WorkerBridge.Proofs.Sends
import WorkerBridge.Proofs.Mirror
import WorkerBridge.Proofs.Budget
import WorkerBridge.Proofs.CrashLoop
import WorkerBridge.Proofs.Line
import WorkerBridge.Proofs.Order
import WorkerBridge.Proofs.FirstStart
import WorkerBridge.Proofs.Store
import WorkerBridge.Proofs.Editor
import WorkerBridge.Proofs.Checks
import WorkerBridge.Proofs.FailedCheck
import WorkerBridge.Proofs.Closing
import WorkerBridge.Proofs.Strays
import WorkerBridge.Proofs.GivingUp
import WorkerBridge.Proofs.Digits
import WorkerBridge.Proofs.Framing
import WorkerBridge.Proofs.Written
import WorkerBridge.Proofs.Truncation
import WorkerBridge.Proofs.HeaderBlock
import WorkerBridge.Proofs.StateReports
import WorkerBridge.Proofs.JsonGrammar
import WorkerBridge.Proofs.JsonReading
import WorkerBridge.Proofs.JsonText
import WorkerBridge.Proofs.ResponseWire
import WorkerBridge.Proofs.Records
import WorkerBridge.Proofs.Classification
import WorkerBridge.Proofs.RequestWire
import WorkerBridge.Proofs.CheckResult
import WorkerBridge.Proofs.Targets
import WorkerBridge.Proofs.Way
import WorkerBridge.Proofs.Traffic
import WorkerBridge.Proofs.Backlog
import WorkerBridge.Proofs.Install
import WorkerBridge.Proofs.Replay
import WorkerBridge.Proofs.Snapshot
import WorkerBridge.Proofs.Flights
import WorkerBridge.Proofs.Backoff
import WorkerBridge.Proofs.Deadlines
import WorkerBridge.Proofs.References
import WorkerBridge.Proofs.Offsets
import WorkerBridge.Proofs.Attempts
import WorkerBridge.Proofs.Courses
import WorkerBridge.Proofs.BoundedStart
import WorkerBridge.Proofs.Trials
