import AttributionReporting.Filter.Match
import AttributionReporting.Trigger

/-!
# Selection

Of the sources that match a trigger, one wins: those protected by a recent install come first, then
those of higher priority, then the later ones (`selectSource`). What is reported about the trigger
is its first datum that admits the winner (`selectDatum`).
-/

namespace AttributionReporting

/-- Whether `a` ranks no lower than `b` for a trigger at `time`. -/
def Source.ranksBefore (time : Int) (a b : Source) : Bool :=
  if a.isProtected time ≠ b.isProtected time then a.isProtected time
  else if a.priority ≠ b.priority then decide (b.priority < a.priority)
  else decide (b.eventTime ≤ a.eventTime)

/-- Sources from the highest rank to the lowest; equal ranks keep their order. -/
def rankSources (time : Int) (sources : List Source) : List Source :=
  sources.mergeSort (Source.ranksBefore time)

/-- The source that wins a trigger, and the others. -/
def selectSource (sources : List Source) (trigger : Trigger) : Option (Source × List Source) :=
  match rankSources trigger.time sources with
  | winner :: losers => some (winner, losers)
  | [] => none

/-- The first event trigger datum that admits a source. -/
def selectDatum (source : Source) (trigger : Trigger) : Option EventTriggerDatum :=
  trigger.eventData.find? fun datum =>
    clausesPass source.matchingData datum.filters datum.notFilters

end AttributionReporting
