import AttributionReporting.Json.Printer
import AttributionReporting.Trigger

/-!
# Aggregate reports

An aggregate report adds values to the buckets of a histogram. Its payload names every bucket by its
decimal number, as text, since a JSON number does not hold 128 bits.
-/

namespace AttributionReporting

/-- A value for one bucket of a histogram. -/
structure Contribution where
  bucket : KeyPiece
  value : UInt32
deriving DecidableEq

/-- The total of some contributions. -/
def totalValue (contributions : List Contribution) : Nat :=
  contributions.foldr (fun c total => c.value.toNat + total) 0

/-- The payload of a report with the given contributions. -/
def cleartextPayload (contributions : List Contribution) : String :=
  (Json.record
    [("operation", .text "histogram"),
      ("data", .array (contributions.map fun c =>
        .record
          [("bucket", .text (toString c.bucket.toNat)),
            ("value", .integer c.value.toNat)]))]).render

/-- How far an aggregate report has come. -/
inductive AggregateReportStatus
  | pending
  | delivered
deriving DecidableEq

instance : Named AggregateReportStatus where
  all := [.pending, .delivered]
  name
    | .pending => "PENDING"
    | .delivered => "DELIVERED"

/-- A report that adds to a histogram. -/
structure AggregateReport where
  id : String
  sourceId : String
  triggerId : String
  publisher : String
  enrollmentId : String
  destination : String
  /-- The day of the source. -/
  sourceRegistrationTime : Int
  scheduledReportTime : Int
  apiVersion : String
  /-- The contributions in clear, for debugging. -/
  debugPayload : String
  contributions : List Contribution
  status : AggregateReportStatus
  sourceDebugKey : Option UInt64
  triggerDebugKey : Option UInt64
  dedupKey : Option UInt64
deriving DecidableEq

end AttributionReporting
