import Rulebook.Numeric.Decimal
import Rulebook.Text.Character
import Rulebook.Text.Lowercase
import Rulebook.Text.Printable
import Rulebook.Time.Moment
import Rulebook.Json.Printer
import Rulebook.Json.Reader
import Rulebook.Value.Equality
import Rulebook.Template
import Rulebook.Condition.Evaluation
import Rulebook.Schema.Scalar
import Rulebook.Rule.Action
import Rulebook.Execution.Basic
import Rulebook.Failure
import Rulebook.Schedule.Job
import Rulebook.Rule.EventType
import Rulebook.Rule.Library
import Rulebook.Pagination
import Rulebook.Metrics
import Rulebook.RateLimit
import Rulebook.Settings
import Rulebook.Api.ErrorBody
import Rulebook.Api.Model
import Rulebook.File.Store
import Rulebook.Mail.Delivery
import Rulebook.File.Listing
import Rulebook.Table.Payload
import Rulebook.Rehearsal.Payload
import Rulebook.Rehearsal.Timeline
import Rulebook.Rehearsal.Office
import Rulebook.Proofs.Numeric.Binary64
import Rulebook.Proofs.Execution.Transition
import Rulebook.Proofs.Execution.Version
import Rulebook.Proofs.Run.Tries
import Rulebook.Proofs.Run.Move
import Rulebook.Proofs.Run.Record
import Rulebook.Proofs.Run.Step
import Rulebook.Proofs.Run.Phase
import Rulebook.Proofs.Store.Keyed
import Rulebook.Proofs.Store.Entry
import Rulebook.Proofs.Store.Kept
import Rulebook.Proofs.Engine.Computation
import Rulebook.Proofs.Engine.Operation
import Rulebook.Proofs.Engine.Core
import Rulebook.Proofs.Engine.Standing
import Rulebook.Proofs.Identifier
import Rulebook.Proofs.Engine.Act
import Rulebook.Proofs.Engine.Change
import Rulebook.Proofs.Engine.Sound
import Rulebook.Proofs.Engine.Finality
import Rulebook.Proofs.Store.Keeps
import Rulebook.Proofs.Engine.Settled
import Rulebook.Proofs.Run.Conclusion
import Rulebook.Proofs.Engine.Following
import Rulebook.Proofs.Engine.World
import Rulebook.Proofs.Engine.Answer
import Rulebook.Proofs.Path
import Rulebook.Proofs.PathText
import Rulebook.Proofs.Template.Filling
import Rulebook.Proofs.Evaluation
import Rulebook.Proofs.Engine.Stray
import Rulebook.Proofs.Engine.Called
import Rulebook.Proofs.EventType
import Rulebook.Proofs.Registry.Index
import Rulebook.Proofs.Registry.Register
import Rulebook.Proofs.Registry.History
import Rulebook.Proofs.Registry.Dispatch
import Rulebook.Proofs.Registry.Meant
import Rulebook.Proofs.Registry.Event
import Rulebook.Proofs.Registry.Jobs
import Rulebook.Proofs.Registry.Sibling
import Rulebook.Proofs.Store.Rule
import Rulebook.Proofs.Registry.Mirror
import Rulebook.Proofs.Engine.Catalog
import Rulebook.Proofs.Engine.Mirror
import Rulebook.Proofs.Run.Course
import Rulebook.Proofs.Registry.Overrun
import Rulebook.Proofs.Engine.Overrun
import Rulebook.Proofs.Schedule.Slots
import Rulebook.Proofs.Schedule.Ticks
import Rulebook.Proofs.Schedule.Remaining
import Rulebook.Proofs.Registry.Owner
import Rulebook.Proofs.Registry.Observe
import Rulebook.Proofs.Registry.Tick
import Rulebook.Proofs.Engine.Tick
import Rulebook.Proofs.Engine.Named
import Rulebook.Proofs.Engine.Tenant
import Rulebook.Proofs.Engine.Limit
import Rulebook.Proofs.Rule.Reread
import Rulebook.Proofs.Store.Agreement
import Rulebook.Proofs.Metrics.Conservation
import Rulebook.Proofs.Engine.Owner
import Rulebook.Proofs.Registry.Part
import Rulebook.Proofs.Engine.Credential
import Rulebook.Proofs.Registry.Rotation
import Rulebook.Proofs.Engine.Statistics
import Rulebook.Proofs.Engine.Recorded
import Rulebook.Proofs.Numeric.Rounding
import Rulebook.Proofs.Numeric.Comparison
import Rulebook.Proofs.Numeric.Nearest
import Rulebook.Proofs.Value.Content
import Rulebook.Proofs.Condition.Joining
import Rulebook.Proofs.Condition.Comparison
import Rulebook.Proofs.Engine.Tally
import Rulebook.Proofs.Engine.SuccessRate
import Rulebook.Proofs.Engine.Rewrite
import Rulebook.Proofs.Engine.Count
import Rulebook.Proofs.Engine.Written
import Rulebook.Proofs.Engine.Listed
import Rulebook.Proofs.Rule.Payload
import Rulebook.Proofs.Api.Answer
import Rulebook.Proofs.Api.Isolation
import Rulebook.Proofs.Api.Timeline
import Rulebook.Proofs.Pattern
import Rulebook.Proofs.File.Confined
import Rulebook.Proofs.File.Root
import Rulebook.Proofs.File.Rename
import Rulebook.Proofs.File.Leftover
import Rulebook.Proofs.Table.Call
import Rulebook.Proofs.Api.Paging
