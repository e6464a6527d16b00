import AttributionReporting.Aggregate.Contribution
import AttributionReporting.Aggregate.Delay
import AttributionReporting.Limits

/-!
# Deciding on aggregate reports

A trigger leads to an aggregate report if it has aggregatable data, comes in time, is not a
duplicate, contributes something, and what it contributes fits into what is left of the source's
budget (`decideAggregateReport`). The report is scheduled a random delay after the trigger.
-/

namespace AttributionReporting

/-- Why a trigger gets no aggregate report. -/
inductive AggregateDropReason
  | noAggregatableData
  | outsideReportWindow
  | duplicateDedupKey
  | noContributions
  /-- The budget of the source would be exceeded. -/
  | insufficientBudget
deriving DecidableEq

/-- What becomes of a trigger. -/
inductive AggregateDecision
  | insert (report : AggregateReport) (dedupKey : Option UInt64)
  | drop (reason : AggregateDropReason)

/-- The version of the reporting interface that reports name. -/
def apiVersion : String := "0.1"

/-- What stands in the way of an aggregate report, if anything does. -/
def aggregateObstacle? (source : Source) (trigger : Trigger) (limits : Limits) :
    Option AggregateDropReason :=
  if trigger.aggregatableData.isEmpty ∨ trigger.aggregateValues.isEmpty then
    some .noAggregatableData
  else if source.aggregatableReportWindow < trigger.time then some .outsideReportWindow
  else if (matchingDedupKey source trigger).any source.aggregateDedupKeys.contains then
    some .duplicateDedupKey
  else if (contributions source trigger).isEmpty then some .noContributions
  else if limits.maxContributions.toNat <
      source.contributions.toNat + totalValue (contributions source trigger) then
    some .insufficientBudget
  else none

/-- The aggregate report about a trigger, scheduled `delay` after it. -/
def aggregateReport (source : Source) (trigger : Trigger) (delay : Int) : AggregateReport where
  id := source.id ++ ":" ++ trigger.id ++ ":aggregate"
  sourceId := source.id
  triggerId := trigger.id
  publisher := source.publisher
  enrollmentId := source.enrollmentId
  destination := trigger.destination
  sourceRegistrationTime := Time.roundDownToDay source.eventTime
  scheduledReportTime := Time.wrap (trigger.time + delay)
  apiVersion := apiVersion
  debugPayload := cleartextPayload (contributions source trigger)
  contributions := contributions source trigger
  status := .pending
  sourceDebugKey := source.debugKey
  triggerDebugKey := trigger.debugKey
  dedupKey := matchingDedupKey source trigger

/-- Decides on an aggregate report. The delay is drawn only when there is one. -/
def decideAggregateReport (source : Source) (trigger : Trigger) (limits : Limits) (draws : Draws) :
    AggregateDecision × Draws :=
  match aggregateObstacle? source trigger limits with
  | some reason => (.drop reason, draws)
  | none =>
    let (delay, draws) := draws.between limits.aggregateMinDelay limits.aggregateMaxDelay
    (.insert (aggregateReport source trigger delay) (matchingDedupKey source trigger), draws)

end AttributionReporting
