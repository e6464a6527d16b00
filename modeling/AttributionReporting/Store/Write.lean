import AttributionReporting.Store.Error
import AttributionReporting.Store.Records

/-!
# Writes

The changes that attribution makes to its store, and what they do to stored records
(`Write.perform`). Inserting a report whose id is taken and changing a record that is not there
fail. A change of status for several records takes effect one by one, so those before an unknown id
are changed although the write fails.
-/

namespace AttributionReporting

/-- A change to stored records. -/
inductive Write
  | insertEventReport (report : EventReport)
  | deleteEventReport (id : String)
  | insertAggregateReport (report : AggregateReport)
  | setEventDedupKeys (sourceId : String) (keys : List UInt64)
  | setAggregateDedupKeys (sourceId : String) (keys : List UInt64)
  | setContributions (sourceId : String) (contributions : UInt32)
  | setReportSpec (sourceId : String) (spec : Option ReportSpec)
  | setSourceStatus (ids : List String) (status : SourceStatus)
  | setTriggerStatus (ids : List String) (status : TriggerStatus)
  | insertAttribution (attribution : Attribution)

namespace Records

/-- Changes a source. -/
def updateSource (id : String) (f : Source → Source) : EStateM StoreError Records Unit :=
  fun r =>
    match modifyKey? Source.id id f r.sources with
    | some sources => .ok () { r with sources }
    | none => .error (.unknownSource id) r

/-- Changes a trigger. -/
def updateTrigger (id : String) (f : Trigger → Trigger) : EStateM StoreError Records Unit :=
  fun r =>
    match modifyKey? Trigger.id id f r.triggers with
    | some triggers => .ok () { r with triggers }
    | none => .error (.unknownTrigger id) r

/-- Adds an event report, whose id must be new. -/
def insertEventReport (report : EventReport) : EStateM StoreError Records Unit := fun r =>
  if r.eventReports.any (·.id == report.id) then .error (.eventReportExists report.id) r
  else .ok () { r with eventReports := r.eventReports ++ [report] }

/-- Takes out the event report with the given id. -/
def deleteEventReport (id : String) : EStateM StoreError Records Unit := fun r =>
  match removeKey? EventReport.id id r.eventReports with
  | some eventReports => .ok () { r with eventReports }
  | none => .error (.unknownEventReport id) r

/-- Adds an aggregate report, whose id must be new. -/
def insertAggregateReport (report : AggregateReport) : EStateM StoreError Records Unit := fun r =>
  if r.aggregateReports.any (·.id == report.id) then .error (.aggregateReportExists report.id) r
  else .ok () { r with aggregateReports := r.aggregateReports ++ [report] }

/-- Sets the status of an event report, as the delivery of reports does. -/
def setEventReportStatus (id : String) (status : EventReportStatus) :
    EStateM StoreError Records Unit := fun r =>
  match modifyKey? EventReport.id id (fun report => { report with status }) r.eventReports with
  | some eventReports => .ok () { r with eventReports }
  | none => .error (.unknownEventReport id) r

end Records

/-- What a write does to stored records. -/
def Write.perform : Write → EStateM StoreError Records Unit
  | .insertEventReport report => Records.insertEventReport report
  | .deleteEventReport id => Records.deleteEventReport id
  | .insertAggregateReport report => Records.insertAggregateReport report
  | .setEventDedupKeys id keys => Records.updateSource id fun s => { s with eventDedupKeys := keys }
  | .setAggregateDedupKeys id keys =>
    Records.updateSource id fun s => { s with aggregateDedupKeys := keys }
  | .setContributions id contributions =>
    Records.updateSource id fun s => { s with contributions }
  | .setReportSpec id spec => Records.updateSource id fun s => { s with reportSpec := spec }
  | .setSourceStatus ids status =>
    ids.forM fun id => Records.updateSource id fun s => { s with status }
  | .setTriggerStatus ids status =>
    ids.forM fun id => Records.updateTrigger id fun t => { t with status }
  | .insertAttribution attribution => fun r =>
    .ok () { r with attributions := r.attributions ++ [attribution] }

end AttributionReporting
