import AttributionReporting.Batch
import AttributionReporting.Flexible.Stored
import AttributionReporting.Job
import AttributionReporting.Json.RoundTrip
import AttributionReporting.Sample
import AttributionReporting.Store.Countdown
import AttributionReporting.Trigger.Registration
import AttributionReporting.Proofs.Flexible.Completeness
import AttributionReporting.Proofs.Flexible.InStep
import AttributionReporting.Proofs.Flexible.Shortcut
import AttributionReporting.Proofs.Flexible.Stability
import AttributionReporting.Proofs.Flexible.Exactness
import AttributionReporting.Proofs.Flexible.Thresholds
import AttributionReporting.Proofs.Flexible.Stored
import AttributionReporting.Proofs.Flexible.Partition
import AttributionReporting.Proofs.Flexible.OpenWindows
import AttributionReporting.Proofs.Flexible.ArrivalOrder
import AttributionReporting.Proofs.Store.Effects
import AttributionReporting.Proofs.Store.Keeps
import AttributionReporting.Proofs.Store.Reachable
import AttributionReporting.Proofs.Store.Credit
import AttributionReporting.Proofs.Store.Wrapped
import AttributionReporting.Proofs.Store.Enrollment
import AttributionReporting.Proofs.Store.Failure
import AttributionReporting.Proofs.Store.Indexed
import AttributionReporting.Proofs.EventReport.ReportTime
import AttributionReporting.Proofs.EventReport.Standard
import AttributionReporting.Proofs.EventReport.TopPriority
import AttributionReporting.Proofs.Aggregate.Contribution
import AttributionReporting.Proofs.Aggregate.Decision
import AttributionReporting.Proofs.Aggregate.Payload
import AttributionReporting.Proofs.Filter.Modes
import AttributionReporting.Proofs.Filter.Values
import AttributionReporting.Proofs.Filter.Readers
import AttributionReporting.Proofs.Selection
import AttributionReporting.Proofs.Wire.KeyPiece
import AttributionReporting.Proofs.Wire.Unsigned
import AttributionReporting.Proofs.Job.Plan
import AttributionReporting.Proofs.Job.Registered
import AttributionReporting.Proofs.Job.EventPath
import AttributionReporting.Proofs.Job.Capacity
import AttributionReporting.Proofs.Job.Award
import AttributionReporting.Proofs.Job.Outcome
import AttributionReporting.Proofs.Job.Delays
import AttributionReporting.Proofs.Job.Wrapped
import AttributionReporting.Proofs.Job.Rollback
import AttributionReporting.Proofs.Job.Attempts
import AttributionReporting.Proofs.Job.Batch
import AttributionReporting.Proofs.Job.Life
import AttributionReporting.Proofs.Job.Sourcewise
import AttributionReporting.Proofs.Job.Budget
import AttributionReporting.Proofs.Job.DedupKeys
import AttributionReporting.Proofs.Job.RateLimit
import AttributionReporting.Proofs.Job.DestinationCap
import AttributionReporting.Proofs.Job.EnrollmentLimit
import AttributionReporting.Proofs.Job.Terminal
import AttributionReporting.Proofs.Job.Provenance
import AttributionReporting.Proofs.Job.Refusal
import AttributionReporting.Proofs.Job.FailClosed
import AttributionReporting.Proofs.Job.Ownership
import AttributionReporting.Proofs.Job.Locality
import AttributionReporting.Proofs.Job.Independence
import AttributionReporting.Proofs.Job.SourceType
import AttributionReporting.Proofs.Batch
