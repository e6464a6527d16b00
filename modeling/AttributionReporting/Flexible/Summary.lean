import AttributionReporting.Flexible.Spec

/-!
# Totals

Every trigger in one of its windows adds to the total of its trigger data. A total grows no further
than the largest unsigned 64-bit number (`cappedTotal`), whatever order the triggers come in.
-/

namespace AttributionReporting

/-- The sum of some values, or the largest total if that is less. -/
def cappedTotal (values : List UInt64) : Nat :=
  min (values.foldr (fun value total => value.toNat + total) 0) maxUInt64.toNat

/-- What a trigger adds to the total of its trigger data. -/
def SummaryOperator.contribution (op : SummaryOperator) (t : AttributedTrigger) : UInt64 :=
  match op with
  | .count => 1
  | .valueSum => t.value

/-- The end of the window in which a trigger falls, for a source of time `eventTime`. The difference
is exact, as it is in 64 bits if these hold it. -/
def TriggerSpec.windowEnd? (spec : TriggerSpec) (eventTime : Int) (t : AttributedTrigger) :
    Option Int :=
  spec.windows.endFor? (t.time - eventTime)

/-- The total that `triggers` reach for one trigger data under the rules `spec`. -/
def TriggerSpec.total (spec : TriggerSpec) (eventTime : Int) (data : UInt64)
    (triggers : List AttributedTrigger) : Nat :=
  cappedTotal ((triggers.filter fun t =>
    t.data == data && (spec.windowEnd? eventTime t).isSome).map spec.operator.contribution)

/-- The number of thresholds that a total has reached. -/
def crossedCount (thresholds : List UInt64) (total : Nat) : Nat :=
  thresholds.countP fun t => decide (t.toNat ≤ total)

/-- The total of a trigger data over the whole history of a source; zero when the source does not
report the data. -/
def ReportSpec.summaryValue (spec : ReportSpec) (eventTime : Int) (data : UInt64) : Nat :=
  match spec.config.triggerSpecFor? data with
  | some rules => rules.total eventTime data spec.history
  | none => 0

end AttributionReporting
