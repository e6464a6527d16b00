import AttributionReporting.Proofs.Job.Plan

/-!
# The life of a store

Sources and triggers are registered, triggers are processed, and what has been reported gets another
status. `Reachable` holds of the states that such events lead to from some start, each of them
allowed where it happens. What holds of the records at the start and is kept by registrations, by
changes of status and by the writes of a plan holds in every such state (`Reachable.records`); a
trigger whose processing fails does not count, because it changes no record.
-/

namespace AttributionReporting

/-- What happens to a store. -/
inductive JobEvent
  | addSource (source : Source)
  | addTrigger (trigger : Trigger)
  | setReportStatus (id : String) (status : EventReportStatus)
  /-- A trigger is processed, pending or not. -/
  | process (triggerId : String)

namespace Job

/-- The state after an event, failed or not. -/
def step (cfg : JobConfig) (s : JobState Store) : JobEvent → JobState Store
  | .addSource source =>
    { s with store := s.store.withRecords (s.store.records.addSource source) }
  | .addTrigger trigger =>
    { s with store := s.store.withRecords (s.store.records.addTrigger trigger) }
  | .setReportStatus id status =>
    match Store.change (Records.setEventReportStatus id status) s.store with
    | .ok _ store => { s with store }
    | .error _ store => { s with store }
  | .process id =>
    match process Store.backend cfg id s with
    | .ok _ s => s
    | .error _ s => s

/-- The states that allowed events lead to. -/
inductive Reachable (cfg : JobConfig) (Start : Records → Prop)
    (Allowed : Records → JobEvent → Prop) : JobState Store → Prop
  | start {s} (h : Start s.store.records) : Reachable cfg Start Allowed s
  | step {s event} (before : Reachable cfg Start Allowed s)
      (allowed : Allowed s.store.records event) : Reachable cfg Start Allowed (step cfg s event)

variable {cfg : JobConfig} {s : JobState Store}

theorem records_setReportStatus (cfg : JobConfig) (s : JobState Store) (id : String)
    (status : EventReportStatus) :
    (step cfg s (.setReportStatus id status)).store.records = s.store.records ∨
      ∃ reports,
        modifyKey? EventReport.id id (fun report => { report with status })
          s.store.records.eventReports = some reports ∧
        (step cfg s (.setReportStatus id status)).store.records =
          { s.store.records with eventReports := reports } := by
  rcases found : modifyKey? EventReport.id id (fun report => { report with status })
      s.store.records.eventReports with _ | reports
  · left
    simp only [step, Store.change, Records.setEventReportStatus, found]
  · right
    simp only [step, Store.change, Records.setEventReportStatus, found]
    exact ⟨reports, rfl, rfl⟩

/-- Processing a trigger leaves the records as they were or performs its plan. -/
theorem records_process (cfg : JobConfig) (s : JobState Store) (id : String) :
    (step cfg s (.process id)).store.records = s.store.records ∨
      ∃ trigger, s.store.records.trigger? id = some trigger ∧
        performAll (triggerPlan cfg s.store.records trigger s.draws).writes s.store.records =
          .ok () (step cfg s (.process id)).store.records := by
  unfold step
  rcases open_ : s.store.snapshot with _ | records
  · rcases process_cases cfg id open_ with ⟨e, draws, eq⟩ | ⟨trigger, r, found, performed, eq⟩
    · left
      simp only [eq]
    · right
      simp only [eq]
      exact ⟨trigger, found, performed⟩
  · left
    simp only [process_of_open cfg id open_]

/-- What holds at the start and is kept by every event holds of all reachable records. -/
theorem Reachable.records {Start : Records → Prop} {Allowed : Records → JobEvent → Prop}
    (inv : Records → Prop) (start : ∀ r, Start r → inv r)
    (addSource : ∀ r source, inv r → Allowed r (.addSource source) → inv (r.addSource source))
    (addTrigger : ∀ r trigger, inv r → Allowed r (.addTrigger trigger) →
      inv (r.addTrigger trigger))
    (setReportStatus : ∀ r id status reports, inv r → Allowed r (.setReportStatus id status) →
      modifyKey? EventReport.id id (fun report => { report with status }) r.eventReports =
        some reports → inv { r with eventReports := reports })
    (process : ∀ r id trigger draws r', inv r → Allowed r (.process id) →
      r.trigger? id = some trigger →
        performAll (triggerPlan cfg r trigger draws).writes r = .ok () r' → inv r')
    (h : Reachable cfg Start Allowed s) : inv s.store.records := by
  induction h with
  | start h => exact start _ h
  | @step s event before allowed ih =>
    cases event with
    | addSource source => exact addSource _ source ih allowed
    | addTrigger trigger => exact addTrigger _ trigger ih allowed
    | setReportStatus id status =>
      rcases records_setReportStatus cfg s id status with same | ⟨reports, eq, changed⟩
      · rw [same]
        exact ih
      · rw [changed]
        exact setReportStatus _ id status reports ih allowed eq
    | process id =>
      rcases records_process cfg s id with same | ⟨trigger, found, performed⟩
      · rw [same]
        exact ih
      · exact process _ id trigger s.draws _ ih allowed found performed

end Job

end AttributionReporting
