import AttributionReporting.AggregateReport
import AttributionReporting.EventReport

/-!
# Stored records

`Records` is all that attribution remembers: sources and triggers under their ids, reports, and the
attributions made. Sources and triggers stay in the order in which their ids were first registered;
registering an id again replaces what it stood for (`upsert`). Reports and attributions stay in the
order in which they were added.
-/

namespace AttributionReporting

/-- The record of one attribution, kept for rate limits. -/
structure Attribution where
  sourceSite : String
  destinationSite : String
  enrollmentId : String
  sourceId : String
  triggerId : String
  time : Int
deriving DecidableEq

/-- The attribution of a trigger to a source. -/
def Attribution.of (source : Source) (trigger : Trigger) : Attribution where
  sourceSite := source.publisher
  destinationSite := trigger.destination
  enrollmentId := trigger.enrollmentId
  sourceId := source.id
  triggerId := trigger.id
  time := trigger.time

/-- Everything that attribution remembers. -/
structure Records where
  sources : List Source := []
  triggers : List Trigger := []
  eventReports : List EventReport := []
  aggregateReports : List AggregateReport := []
  attributions : List Attribution := []

/-! ## Lists of records under keys -/

variable {α : Type}

/-- Puts a record in the place of the one with its key, or at the end if there is none. -/
def upsert (key : α → String) (a : α) : List α → List α
  | [] => [a]
  | b :: rest => if key b = key a then a :: rest else b :: upsert key a rest

/-- Changes the first record with the given key, if there is one. -/
def modifyKey? (key : α → String) (k : String) (f : α → α) : List α → Option (List α)
  | [] => none
  | a :: rest => if key a = k then some (f a :: rest) else (modifyKey? key k f rest).map (a :: ·)

/-- Takes out the first record with the given key, if there is one. -/
def removeKey? (key : α → String) (k : String) : List α → Option (List α)
  | [] => none
  | a :: rest => if key a = k then some rest else (removeKey? key k rest).map (a :: ·)

namespace Records

/-- Registers a source. -/
def addSource (r : Records) (source : Source) : Records :=
  { r with sources := upsert Source.id source r.sources }

/-- Registers a trigger. -/
def addTrigger (r : Records) (trigger : Trigger) : Records :=
  { r with triggers := upsert Trigger.id trigger r.triggers }

/-- The source with the given id. -/
def source? (r : Records) (id : String) : Option Source := r.sources.find? (·.id == id)

/-- The trigger with the given id. -/
def trigger? (r : Records) (id : String) : Option Trigger := r.triggers.find? (·.id == id)

end Records

end AttributionReporting
