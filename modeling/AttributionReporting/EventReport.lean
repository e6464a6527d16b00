import AttributionReporting.Source

/-!
# Event reports

An event report tells the origin of a source that one of its triggers was attributed. A report
counts against the limits of its source while it is standing, that is pending or delivered. A
flexible report also names the bucket of totals that it stands for, which becomes part of its id,
since one trigger may lead to several of them.
-/

namespace AttributionReporting

/-- How far a report has come. -/
inductive EventReportStatus
  | pending
  | delivered
  | markedToDelete
deriving DecidableEq

instance : Named EventReportStatus where
  all := [.pending, .delivered, .markedToDelete]
  name
    | .pending => "PENDING"
    | .delivered => "DELIVERED"
    | .markedToDelete => "MARKED_TO_DELETE"

/-- Whether a debug report goes along with a report. -/
inductive DebugReportStatus
  | none
  | pending
deriving DecidableEq

instance : Named DebugReportStatus where
  all := [.none, .pending]
  name
    | .none => "NONE"
    | .pending => "PENDING"

/-- A report about one attributed trigger. -/
structure EventReport where
  id : String
  sourceId : String
  /-- The trigger that the report credits. -/
  credited : AttributedTrigger
  sourceEventId : UInt64
  enrollmentId : String
  destinations : List String
  sourceType : SourceType
  reportTime : Int
  /-- The rate at which reports of such sources are made up. -/
  triggerRate : Float
  status : EventReportStatus
  debugStatus : DebugReportStatus
  /-- The totals that a flexible report stands for. -/
  bucket : Option SummaryBucket
  sourceDebugKey : Option UInt64
  triggerDebugKey : Option UInt64

namespace EventReport

/-- The pending report that credits `credited` to `source`. It comes with a debug report when both
sides have a debug key. -/
def ofAttributed (source : Source) (credited : AttributedTrigger) (reportTime : Int)
    (triggerRate : Float) (triggerDebugKey : Option UInt64) : EventReport where
  id := source.id ++ ":" ++ credited.triggerId
  sourceId := source.id
  credited := credited
  sourceEventId := source.eventId
  enrollmentId := source.enrollmentId
  destinations := source.allDestinations
  sourceType := source.type
  reportTime := reportTime
  triggerRate := triggerRate
  status := .pending
  debugStatus := if source.debugKey.isSome ∧ triggerDebugKey.isSome then .pending else .none
  bucket := none
  sourceDebugKey := source.debugKey
  triggerDebugKey := triggerDebugKey

/-- The report as one for a bucket of totals. -/
def withBucket (r : EventReport) (bucket : SummaryBucket) : EventReport :=
  { r with id := r.id ++ ":" ++ toString bucket.first.toNat, bucket := some bucket }

/-- Whether the report counts against the limits of its source. -/
def isStanding (r : EventReport) : Bool := r.status == .pending || r.status == .delivered

end EventReport

end AttributionReporting
