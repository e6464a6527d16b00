import AttributionReporting.Filter.Clause
import AttributionReporting.Source

/-!
# Triggers

A trigger is a conversion that waits to be attributed to a source. It offers data for an event
report (the first of its `EventTriggerDatum`s whose clauses pass is used) and data for an aggregate
report.
-/

namespace AttributionReporting

/-- Whether a trigger has been dealt with. -/
inductive TriggerStatus
  | pending
  | attributed
  | ignored
deriving DecidableEq

instance : Named TriggerStatus where
  all := [.pending, .attributed, .ignored]
  name
    | .pending => "PENDING"
    | .attributed => "ATTRIBUTED"
    | .ignored => "IGNORED"

/-- What an event report of the trigger may say, and about which sources. -/
structure EventTriggerDatum where
  data : UInt64 := 0
  priority : Int := 0
  dedupKey : Option UInt64 := none
  value : UInt64 := 1
  filters : FilterClause := .unconstrained
  notFilters : FilterClause := .unconstrained
deriving DecidableEq

/-- A key piece for the named aggregation keys of the sources that pass. -/
structure AggregatableDatum where
  keyPiece : KeyPiece
  sourceKeys : List String
  filters : FilterClause
  notFilters : FilterClause
deriving DecidableEq

/-- A dedup key of aggregate reports about the sources that pass. -/
structure AggregateDedupKey where
  dedupKey : Option UInt64
  filters : FilterClause
  notFilters : FilterClause
deriving DecidableEq

/-- A conversion. -/
structure Trigger where
  id : String
  destination : String
  destinationType : DestinationType
  enrollmentId : String
  time : Int
  status : TriggerStatus
  eventData : List EventTriggerDatum
  filters : FilterClause
  notFilters : FilterClause
  aggregatableData : List AggregatableDatum
  aggregateValues : StringMap UInt32
  aggregateDedupKeys : List AggregateDedupKey
  debugKey : Option UInt64
deriving DecidableEq

/-- What is recorded when a trigger is attributed with the given datum. -/
def Trigger.attributedWith (t : Trigger) (datum : EventTriggerDatum) : AttributedTrigger where
  triggerId := t.id
  time := t.time
  data := datum.data
  priority := datum.priority
  value := datum.value
  dedupKey := datum.dedupKey

end AttributionReporting
