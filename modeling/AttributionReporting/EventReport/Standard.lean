import AttributionReporting.EventReport
import AttributionReporting.Limits
import AttributionReporting.Trigger

/-!
# Event reports of plain sources

A source without a report spec gets one report for each attributed trigger, due at the end of the
reporting window that is open (`standardReportTime`), up to a limit. At the limit a new report may
still take the place of a pending one that is due at the same time and has a lower priority
(`decideStandardReport`).
-/

namespace AttributionReporting

/-- When the report for a trigger at `time` is due: the delay after the end of the first early
window still open, or else of the whole time for event reports. There is none once that time is
over. The sums are exact, as they are in 64 bits if these hold each of them. -/
def standardReportTime (source : Source) (time : Int) (type : DestinationType) (limits : Limits) :
    Option Int :=
  if source.eventReportWindow < time then none
  else
    let early := (limits.earlyWindows source type).map (source.eventTime + ·)
    let isOpen (windowEnd : Int) : Bool :=
      decide (windowEnd < source.eventReportWindow ∧ time < windowEnd)
    let windowEnd := (early.find? isOpen).getD source.eventReportWindow
    some (windowEnd + limits.eventReportDelay)

/-- Why a trigger gets no report. -/
inductive EventDropReason
  | outsideReportWindow
  | duplicateDedupKey
  /-- At the limit, with no pending report due at the same time. -/
  | reportLimitReached
  /-- At the limit, and not above the lowest priority among those due at the same time. -/
  | lowerPriority
deriving DecidableEq

/-- What becomes of a trigger. -/
inductive EventReportDecision
  | insert (report : EventReport) (replaces : Option EventReport)
  | drop (reason : EventDropReason)

namespace EventReport

/-- Whether `a` is given up before `b`: it has the lower priority or, at equal priority, the later
trigger. -/
def yieldsBefore (a b : EventReport) : Bool :=
  decide (a.credited.priority < b.credited.priority ∨
    (a.credited.priority = b.credited.priority ∧ b.credited.time < a.credited.time))

/-- The report that is given up first; of several equals the first in the list. -/
def firstToYield? : List EventReport → Option EventReport
  | [] => none
  | r :: rest =>
    match firstToYield? rest with
    | none => some r
    | some s => if s.yieldsBefore r then some s else some r

end EventReport

/-- Decides on a report for `datum`, given the current reports of the source. -/
def decideStandardReport (source : Source) (trigger : Trigger) (datum : EventTriggerDatum)
    (existing : List EventReport) (limits : Limits) (triggerRate : Float) : EventReportDecision :=
  match standardReportTime source trigger.time trigger.destinationType limits with
  | none => .drop .outsideReportWindow
  | some reportTime =>
    if datum.dedupKey.any source.eventDedupKeys.contains then .drop .duplicateDedupKey
    else
      let report := EventReport.ofAttributed source (trigger.attributedWith datum) reportTime
        triggerRate trigger.debugKey
      let standing := existing.countP (·.isStanding)
      if standing < (limits.maxEventReports source trigger.destinationType).toNat then
        .insert report none
      else
        let rivals := existing.filter fun r => r.status == .pending && r.reportTime == reportTime
        match EventReport.firstToYield? rivals with
        | none => .drop .reportLimitReached
        | some lowest =>
          if lowest.credited.priority < report.credited.priority then .insert report (some lowest)
          else .drop .lowerPriority

end AttributionReporting
