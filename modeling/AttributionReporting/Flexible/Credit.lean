import AttributionReporting.Flexible.Desired
import AttributionReporting.Flexible.Reconcile

/-!
# Crediting a trigger to a flexible source

`ReportSpec.credit` takes one more trigger into the history of a flexible source. A trigger may be
rejected; it may join the history without reaching a new bucket of its trigger data, and then no
report changes; or the reports are brought in line with the whole history.
-/

namespace AttributionReporting

/-- Why a trigger is rejected. -/
inductive FlexibleRejection
  | unknownTriggerData
  | duplicateDedupKey
  | outsideReportingWindows
deriving DecidableEq

/-- What becomes of a trigger. -/
inductive FlexibleOutcome
  /-- Nothing changes, not even the history. -/
  | rejected (reason : FlexibleRejection)
  /-- The trigger joins the history but moves no report. -/
  | historyOnly (next : ReportSpec)
  /-- The trigger joins the history, and reports change. -/
  | reports (next : ReportSpec) (insert delete : List EventReport)

namespace ReportSpec

/-- Whether a trigger of the history has the given dedup key. -/
def hasDedupKey (spec : ReportSpec) (key : UInt64) : Bool :=
  spec.history.any fun t => t.dedupKey == some key

/-- Why a trigger cannot join the history; otherwise the rules for its trigger data. -/
def rulesFor (spec : ReportSpec) (eventTime : Int) (t : AttributedTrigger) :
    Except FlexibleRejection TriggerSpec :=
  match spec.config.triggerSpecFor? t.data with
  | none => .error .unknownTriggerData
  | some rules =>
    if t.dedupKey.any spec.hasDedupKey then .error .duplicateDedupKey
    else if (rules.windowEnd? eventTime t).isNone then .error .outsideReportingWindows
    else .ok rules

/-- Takes a trigger into the history of `source`, whose current reports are `existing`. -/
def credit (spec : ReportSpec) (source : Source) (t : AttributedTrigger)
    (existing : List EventReport) (ctx : ReportContext) : FlexibleOutcome :=
  match spec.rulesFor source.eventTime t with
  | .error reason => .rejected reason
  | .ok rules =>
    let next := spec.record t
    let thresholds := rules.thresholds spec.config.maxReports
    let crossed (spec : ReportSpec) :=
      crossedCount thresholds (spec.summaryValue source.eventTime t.data)
    if crossed spec = crossed next then .historyOnly next
    else
      let (insert, delete) := reconcile spec.maxReports (next.desired source ctx) existing ctx.now
      .reports next insert delete

end ReportSpec

end AttributionReporting
