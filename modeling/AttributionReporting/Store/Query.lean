import AttributionReporting.Store.Error
import AttributionReporting.Store.Records

/-!
# Queries

The questions that attribution asks its store, and what stored records answer (`Query.answer`). Only
the question for a trigger by its id can fail. Counts over a window of time leave out its beginning
and include its end.
-/

namespace AttributionReporting

/-- A question with answers of type `α`. -/
inductive Query : Type → Type
  /-- The pending triggers, in order of registration. -/
  | pendingTriggers : Query (List Trigger)
  | trigger (id : String) : Query Trigger
  /-- The sources that a trigger may be attributed to, in order of registration. -/
  | matchingSources (trigger : Trigger) : Query (List Source)
  /-- The attributions between the sites and the enrollment of a source and a trigger, from
  `windowStart` to the trigger. -/
  | attributionCount (source : Source) (trigger : Trigger) (windowStart : Int) : Query Nat
  /-- The enrollments other than `excluded` with attributions between a publisher and a
  destination. -/
  | enrollmentCount (publisher destination excluded : String) (windowStart windowEnd : Int) :
    Query Nat
  | sourceReports (sourceId : String) : Query (List EventReport)
  /-- The pending event reports for a destination. -/
  | eventReportCount (destination : String) : Query Nat
  /-- The pending aggregate reports for a destination. -/
  | aggregateReportCount (destination : String) : Query Nat

/-- Whether a trigger may be attributed to a source. -/
def Source.matchesTrigger (s : Source) (t : Trigger) : Bool :=
  s.status == .active && s.enrollmentId == t.enrollmentId &&
    (s.destinations t.destinationType).contains t.destination &&
    decide (s.eventTime ≤ t.time) && decide (t.time < s.expiryTime)

/-- Whether an attribution lies between two sites, after `windowStart` and up to `windowEnd`. -/
def Attribution.isBetween (a : Attribution) (publisher destination : String)
    (windowStart windowEnd : Int) : Bool :=
  a.sourceSite == publisher && a.destinationSite == destination &&
    decide (windowStart < a.time) && decide (a.time ≤ windowEnd)

namespace Records

/-- The number of attributions between two sites by one enrollment. -/
def attributionCount (r : Records) (publisher destination enrollmentId : String)
    (windowStart windowEnd : Int) : Nat :=
  r.attributions.countP fun a =>
    a.isBetween publisher destination windowStart windowEnd && a.enrollmentId == enrollmentId

/-- The number of other enrollments with attributions between two sites. -/
def enrollmentCount (r : Records) (publisher destination excluded : String)
    (windowStart windowEnd : Int) : Nat :=
  let others := r.attributions.filter fun a =>
    a.isBetween publisher destination windowStart windowEnd && a.enrollmentId != excluded
  (others.map (·.enrollmentId)).eraseDups.length

/-- The number of pending event reports for a destination. -/
def eventReportCount (r : Records) (destination : String) : Nat :=
  r.eventReports.countP fun report =>
    report.status == .pending && report.destinations.contains destination

/-- The number of pending aggregate reports for a destination. -/
def aggregateReportCount (r : Records) (destination : String) : Nat :=
  r.aggregateReports.countP fun report =>
    report.status == .pending && report.destination == destination

end Records

/-- What stored records answer. -/
def Query.answer {α : Type} (r : Records) : Query α → Except StoreError α
  | .pendingTriggers => .ok (r.triggers.filter (·.status == .pending))
  | .trigger id =>
    match r.trigger? id with
    | some t => .ok t
    | none => .error (.unknownTrigger id)
  | .matchingSources t => .ok (r.sources.filter (·.matchesTrigger t))
  | .attributionCount s t windowStart =>
    .ok (r.attributionCount s.publisher t.destination t.enrollmentId windowStart t.time)
  | .enrollmentCount publisher destination excluded windowStart windowEnd =>
    .ok (r.enrollmentCount publisher destination excluded windowStart windowEnd)
  | .sourceReports id => .ok (r.eventReports.filter (·.sourceId == id))
  | .eventReportCount destination => .ok (r.eventReportCount destination)
  | .aggregateReportCount destination => .ok (r.aggregateReportCount destination)

end AttributionReporting
