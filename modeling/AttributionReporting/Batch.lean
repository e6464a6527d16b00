import AttributionReporting.AggregateReport
import AttributionReporting.Time

/-!
# Batches

Aggregate reports are exported in batches, one for each destination and UTC day. A batch is named by
the destination and the start of the day (`batchKey`), and keeps the order of its reports.
-/

namespace AttributionReporting

/-- The name of the batch for a destination and a scheduled time. -/
def batchKey (destination : String) (time : Int) : String :=
  destination ++ "_" ++ toString (Time.roundDownToDay time)

/-- The name of the batch that a report belongs to. -/
def AggregateReport.batchKey (r : AggregateReport) : String :=
  AttributionReporting.batchKey r.destination r.scheduledReportTime

/-- Reports by batch. -/
def batches (reports : List AggregateReport) : StringMap (List AggregateReport) :=
  reports.foldl (fun m r => m.insert r.batchKey ((m.get? r.batchKey).getD [] ++ [r])) ∅

end AttributionReporting
