import AttributionReporting.EventReport
import AttributionReporting.Flexible.Summary

/-!
# The reports that a history deserves

`ReportSpec.desired` lists the reports of a flexible source as if none had been made yet. The
triggers of the history are taken in rank order: higher priority first, then earlier time, then
arrival. Each of them is credited with the buckets whose start its contribution makes the total
reach, so that a trigger that ranks higher takes the lower buckets.
-/

namespace AttributionReporting

/-- What the reports of a flexible source depend on besides its rules and its history. -/
structure ReportContext where
  /-- Reports due before this time count as sent. -/
  now : Int
  delay : Int
  triggerRate : Float
  triggerDebugKey : Option UInt64

/-- Whether `a` ranks no lower than `b`. -/
def AttributedTrigger.ranksBefore (a b : AttributedTrigger) : Bool :=
  decide (b.priority < a.priority ∨ (a.priority = b.priority ∧ a.time ≤ b.time))

/-- Triggers from the highest rank to the lowest; equal ranks keep their order. -/
def rankTriggers (triggers : List AttributedTrigger) : List AttributedTrigger :=
  triggers.mergeSort AttributedTrigger.ranksBefore

namespace ReportSpec

/-- The debug key for a report that credits `t`: only the latest trigger has one. -/
def debugKeyFor (spec : ReportSpec) (ctx : ReportContext) (t : AttributedTrigger) : Option UInt64 :=
  if (spec.history.getLast?.map (·.triggerId)) = some t.triggerId then ctx.triggerDebugKey else none

/-- The reports that credit `t` when it is ranked directly after `above`. -/
def reportsFor (spec : ReportSpec) (source : Source) (ctx : ReportContext)
    (above : List AttributedTrigger) (t : AttributedTrigger) : List EventReport :=
  match spec.config.triggerSpecFor? t.data with
  | none => []
  | some rules =>
    match rules.windowEnd? source.eventTime t with
    | none => []
    | some windowEnd =>
      let before := rules.total source.eventTime t.data above
      let after := rules.total source.eventTime t.data (above ++ [t])
      let reportTime := rules.windows.reportTime source.eventTime ctx.delay ctx.now windowEnd
      let reached := (rules.summaryBuckets spec.config.maxReports).filter fun bucket =>
        decide (before < bucket.first.toNat ∧ bucket.first.toNat ≤ after)
      reached.map fun bucket =>
        (EventReport.ofAttributed source t reportTime ctx.triggerRate
          (spec.debugKeyFor ctx t)).withBucket bucket

/-- The reports for ranked triggers that follow `above`. -/
def desiredFrom (spec : ReportSpec) (source : Source) (ctx : ReportContext) :
    List AttributedTrigger → List AttributedTrigger → List EventReport
  | _, [] => []
  | above, t :: rest =>
    spec.reportsFor source ctx above t ++ desiredFrom spec source ctx (above ++ [t]) rest

/-- Every report that the history deserves, those for the highest ranked trigger first. -/
def desired (spec : ReportSpec) (source : Source) (ctx : ReportContext) : List EventReport :=
  spec.desiredFrom source ctx [] (rankTriggers spec.history)

end ReportSpec

end AttributionReporting
