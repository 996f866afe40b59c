import ChangeRules.Action.Context
import ChangeRules.Action.Dispatch
import ChangeRules.Action.Kind
import ChangeRules.Action.Spec
import ChangeRules.Action.Template
import ChangeRules.Api.Payload
import ChangeRules.Api.Refusal
import ChangeRules.Api.Request
import ChangeRules.Api.Resource
import ChangeRules.Api.Server
import ChangeRules.Condition.Basic
import ChangeRules.Condition.Evaluation
import ChangeRules.Condition.Reading
import ChangeRules.Correlation
import ChangeRules.Engine.Firing
import ChangeRules.Engine.Lock
import ChangeRules.Engine.Process
import ChangeRules.Engine.Report
import ChangeRules.Engine.Toggle
import ChangeRules.Engine.World
import ChangeRules.Event
import ChangeRules.Event.Notice
import ChangeRules.Fault
import ChangeRules.Feed.Broker
import ChangeRules.Feed.Consumer
import ChangeRules.Identifier
import ChangeRules.Json.Reader
import ChangeRules.Json.Writer
import ChangeRules.Matching
import ChangeRules.Metrics
import ChangeRules.Number.Double
import ChangeRules.Number.Mixed
import ChangeRules.Number.Notation
import ChangeRules.Number.Reading
import ChangeRules.Number.Shortest
import ChangeRules.Rule
import ChangeRules.Rule.Draft
import ChangeRules.Settings
import ChangeRules.Sink.Address
import ChangeRules.Sink.Breaker
import ChangeRules.Sink.Client
import ChangeRules.Sink.Network
import ChangeRules.Sink.Outlets
import ChangeRules.Sink.Retry
import ChangeRules.Sink.Script
import ChangeRules.Store.Database
import ChangeRules.Store.Fault
import ChangeRules.Store.Log
import ChangeRules.Store.Logs
import ChangeRules.Store.Rules
import ChangeRules.Text.Base64
import ChangeRules.Text.Blank
import ChangeRules.Text.Case
import ChangeRules.Text.CaseTable
import ChangeRules.Text.Digit
import ChangeRules.Text.Find
import ChangeRules.Text.Percent
import ChangeRules.Text.Printable
import ChangeRules.Text.Quoted
import ChangeRules.Text.Utf
import ChangeRules.Time.Date
import ChangeRules.Time.DateTime
import ChangeRules.Time.Iso
import ChangeRules.Validation.Issue
import ChangeRules.Validation.Moment
import ChangeRules.Validation.Scalar
import ChangeRules.Value.Basic
import ChangeRules.Value.Equal
import ChangeRules.Value.JsonForm
import ChangeRules.Value.Number
import ChangeRules.Value.Tagged
import ChangeRules.Value.Text
import ChangeRules.Proofs.Engine.Effect
import ChangeRules.Proofs.Engine.Stage
import ChangeRules.Proofs.Store.Keyed
import ChangeRules.Proofs.Engine.Ledger
import ChangeRules.Proofs.Matching
import ChangeRules.Proofs.Engine.Progress
import ChangeRules.Proofs.Engine.Aftermath
import ChangeRules.Proofs.Engine.Isolation
import ChangeRules.Proofs.Feed.Handling
import ChangeRules.Proofs.Feed.AtLeastOnce
import ChangeRules.Proofs.Action.FailFast
import ChangeRules.Proofs.Text.Tidy
import ChangeRules.Proofs.Action.Parameters
import ChangeRules.Proofs.Action.Errand
import ChangeRules.Proofs.Action.Requests
import ChangeRules.Proofs.Engine.Agreement
import ChangeRules.Proofs.Engine.Containment
import ChangeRules.Proofs.Engine.Dispatching
import ChangeRules.Proofs.Engine.Journal
import ChangeRules.Proofs.Engine.Likeness
import ChangeRules.Proofs.Engine.Outage
import ChangeRules.Proofs.Engine.Recording
import ChangeRules.Proofs.Engine.Tenant
import ChangeRules.Proofs.Sink.History
import ChangeRules.Proofs.Sink.Traffic
import ChangeRules.Proofs.Sink.Silence
import ChangeRules.Proofs.Engine.Registry
import ChangeRules.Proofs.Engine.Serialization
import ChangeRules.Proofs.Sink.Calls
import ChangeRules.Proofs.Sink.Calm
import ChangeRules.Proofs.Engine.Live
import ChangeRules.Proofs.Engine.Timeless
import ChangeRules.Proofs.Engine.Foretelling
import ChangeRules.Proofs.Engine.Indifference
import ChangeRules.Proofs.Condition.Shape
import ChangeRules.Proofs.Condition.NormalForm
import ChangeRules.Proofs.Condition.Misuse
import ChangeRules.Proofs.Selection
import ChangeRules.Proofs.Engine.Overlap
import ChangeRules.Proofs.Engine.LastExecution
import ChangeRules.Proofs.Engine.Accord
import ChangeRules.Proofs.Rule.Draft
import ChangeRules.Proofs.Store.Boundary
import ChangeRules.Proofs.Sink.Recency
import ChangeRules.Proofs.Sink.Contract
import ChangeRules.Proofs.Number.Rounding
import ChangeRules.Proofs.Number.Reading
import ChangeRules.Proofs.Condition.Oversized
import ChangeRules.Proofs.Condition.Failure
import ChangeRules.Proofs.Condition.Outcome
import ChangeRules.Proofs.Condition.Comparison
import ChangeRules.Proofs.Condition.Integers
import ChangeRules.Proofs.Time.Calendar
import ChangeRules.Proofs.Time.Notation
import ChangeRules.Proofs.Condition.Instant
import ChangeRules.Proofs.Action.Resubmission
import ChangeRules.Proofs.Action.Record
import ChangeRules.Proofs.Action.Placeholder
import ChangeRules.Proofs.Action.Rendering
import ChangeRules.Proofs.Action.Refusal
import ChangeRules.Proofs.Feed.Rewinding
import ChangeRules.Proofs.Feed.Seeking
import ChangeRules.Proofs.Feed.Session
import ChangeRules.Proofs.Feed.Tracks
import ChangeRules.Proofs.Store.Paging
import ChangeRules.Proofs.Store.Statistics
import ChangeRules.Proofs.Text.Utf
import ChangeRules.Proofs.Text.Percent
import ChangeRules.Proofs.Sink.RecordAddress
import ChangeRules.Proofs.Sink.Attempts
import ChangeRules.Proofs.Engine.Toggling
import ChangeRules.Proofs.Json.Reading
