import AttributionReporting.AggregateReport
import AttributionReporting.Filter.Match

/-!
# Contributions to histograms

A trigger contributes to one bucket for each aggregation key of the source that its passing data
name. The bucket combines the key piece of the source with those of all data that name the key, and
the value is the one that the trigger gives for the key. `contributions` lists them in the order in
which the keys are first named.
-/

namespace AttributionReporting

/-- The aggregatable data of a trigger whose clauses admit a source. -/
def passingData (source : Source) (trigger : Trigger) : List AggregatableDatum :=
  trigger.aggregatableData.filter fun datum =>
    clausesPass source.matchingData datum.filters datum.notFilters

/-- The buckets named so far, with a key piece combined into the bucket of `name`. A bucket starts
from the key piece of the source. -/
def addKeyPiece (name : String) (sourcePiece piece : KeyPiece) :
    List (String × KeyPiece) → List (String × KeyPiece)
  | [] => [(name, sourcePiece ||| piece)]
  | (other, bucket) :: rest =>
    if other = name then (other, bucket ||| piece) :: rest
    else (other, bucket) :: addKeyPiece name sourcePiece piece rest

/-- The buckets named so far, with what one datum adds to them. -/
def addDatum (source : Source) (buckets : List (String × KeyPiece)) (datum : AggregatableDatum) :
    List (String × KeyPiece) :=
  datum.sourceKeys.foldl (fun buckets name =>
    match source.aggregationKeys.get? name with
    | some sourcePiece => addKeyPiece name sourcePiece datum.keyPiece buckets
    | none => buckets) buckets

/-- The buckets that a trigger names, in the order in which it first names them. -/
def namedBuckets (source : Source) (trigger : Trigger) : List (String × KeyPiece) :=
  (passingData source trigger).foldl (addDatum source) []

/-- What a trigger contributes for a source. -/
def contributions (source : Source) (trigger : Trigger) : List Contribution :=
  (namedBuckets source trigger).filterMap fun (name, bucket) =>
    match trigger.aggregateValues.get? name with
    | some value => if 0 < value then some { bucket, value } else none
    | none => none

/-- The dedup key for an aggregate report: that of the first entry whose clauses admit the source,
if it has one. -/
def matchingDedupKey (source : Source) (trigger : Trigger) : Option UInt64 :=
  (trigger.aggregateDedupKeys.find? fun entry =>
    clausesPass source.matchingData entry.filters entry.notFilters).bind (·.dedupKey)

end AttributionReporting
