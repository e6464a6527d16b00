import AttributionReporting.Proofs.Store.Keeps
import AttributionReporting.Proofs.Store.Keyed

/-!
# The states of a store

A store in memory starts out empty. Sources and triggers are registered, reports that were sent get
another status, transactions are opened and closed, and records are written, one call after the
other, whether the calls succeed or fail (`Store.Reachable`). In all states that come about like
this, ids are distinct among the records of each kind (`Store.Reachable.wellKeyed`), also in what a
rollback would return to.
-/

namespace AttributionReporting

/-- Whatever can be done to a store in memory, apart from asking it. -/
inductive StoreCall
  | addSource (source : Source)
  | addTrigger (trigger : Trigger)
  | setReportStatus (id : String) (status : EventReportStatus)
  | transact (step : Transaction)
  | write (w : Write)

/-- Ids are distinct among the records of each kind. -/
structure Records.WellKeyed (r : Records) : Prop where
  sources : (r.sources.map Source.id).Nodup
  triggers : (r.triggers.map Trigger.id).Nodup
  eventReports : (r.eventReports.map EventReport.id).Nodup
  aggregateReports : (r.aggregateReports.map AggregateReport.id).Nodup

/-! ## Writes -/

namespace Records

theorem wellKeyed_empty : ({} : Records).WellKeyed :=
  ⟨List.nodup_nil, List.nodup_nil, List.nodup_nil, List.nodup_nil⟩

theorem keeps_wellKeyed_updateSource (id : String) {f : Source → Source}
    (same : ∀ s, (f s).id = s.id) : Keeps WellKeyed (updateSource id f) := by
  refine .of_cases fun r keyed => ?_
  unfold updateSource
  cases found : modifyKey? Source.id id f r.sources with
  | none => exact .inr ⟨_, rfl⟩
  | some sources =>
    have ids := nodup_modifyKey? same found keyed.sources
    exact .inl ⟨_, _, rfl, { keyed with sources := ids }⟩

theorem keeps_wellKeyed_updateTrigger (id : String) {f : Trigger → Trigger}
    (same : ∀ t, (f t).id = t.id) : Keeps WellKeyed (updateTrigger id f) := by
  refine .of_cases fun r keyed => ?_
  unfold updateTrigger
  cases found : modifyKey? Trigger.id id f r.triggers with
  | none => exact .inr ⟨_, rfl⟩
  | some triggers =>
    have ids := nodup_modifyKey? same found keyed.triggers
    exact .inl ⟨_, _, rfl, { keyed with triggers := ids }⟩

theorem keeps_wellKeyed_insertEventReport (report : EventReport) :
    Keeps WellKeyed (insertEventReport report) := by
  refine .of_cases fun r keyed => ?_
  unfold insertEventReport
  split_ifs with taken
  · exact .inr ⟨_, rfl⟩
  · have ids := nodup_append_singleton (by simpa using taken) keyed.eventReports
    exact .inl ⟨_, _, rfl, { keyed with eventReports := ids }⟩

theorem keeps_wellKeyed_deleteEventReport (id : String) :
    Keeps WellKeyed (deleteEventReport id) := by
  refine .of_cases fun r keyed => ?_
  unfold deleteEventReport
  cases found : removeKey? EventReport.id id r.eventReports with
  | none => exact .inr ⟨_, rfl⟩
  | some reports =>
    have ids := nodup_removeKey? found keyed.eventReports
    exact .inl ⟨_, _, rfl, { keyed with eventReports := ids }⟩

theorem keeps_wellKeyed_insertAggregateReport (report : AggregateReport) :
    Keeps WellKeyed (insertAggregateReport report) := by
  refine .of_cases fun r keyed => ?_
  unfold insertAggregateReport
  split_ifs with taken
  · exact .inr ⟨_, rfl⟩
  · have ids := nodup_append_singleton (by simpa using taken) keyed.aggregateReports
    exact .inl ⟨_, _, rfl, { keyed with aggregateReports := ids }⟩

theorem keeps_wellKeyed_setEventReportStatus (id : String) (status : EventReportStatus) :
    Keeps WellKeyed (setEventReportStatus id status) := by
  refine .of_cases fun r keyed => ?_
  unfold setEventReportStatus
  cases found : modifyKey? EventReport.id id (fun report => { report with status })
    r.eventReports with
  | none => exact .inr ⟨_, rfl⟩
  | some reports =>
    have ids := nodup_modifyKey? (fun _ => by rfl) found keyed.eventReports
    exact .inl ⟨_, _, rfl, { keyed with eventReports := ids }⟩

theorem keeps_wellKeyed_perform (w : Write) : Keeps WellKeyed w.perform := by
  cases w with
  | insertEventReport report => exact keeps_wellKeyed_insertEventReport report
  | deleteEventReport id => exact keeps_wellKeyed_deleteEventReport id
  | insertAggregateReport report => exact keeps_wellKeyed_insertAggregateReport report
  | setEventDedupKeys | setAggregateDedupKeys | setContributions | setReportSpec =>
    exact keeps_wellKeyed_updateSource _ fun _ => rfl
  | setSourceStatus ids status =>
    refine Keeps.forM fun id _ => ?_
    exact keeps_wellKeyed_updateSource id fun _ => rfl
  | setTriggerStatus ids status =>
    refine Keeps.forM fun id _ => ?_
    exact keeps_wellKeyed_updateTrigger id fun _ => rfl
  | insertAttribution attribution =>
    exact .of_cases fun r keyed => .inl ⟨_, _, rfl, { keyed with }⟩

theorem WellKeyed.addSource {r : Records} (keyed : r.WellKeyed) (source : Source) :
    (r.addSource source).WellKeyed :=
  { keyed with sources := nodup_upsert source keyed.sources }

theorem WellKeyed.addTrigger {r : Records} (keyed : r.WellKeyed) (trigger : Trigger) :
    (r.addTrigger trigger).WellKeyed :=
  { keyed with triggers := nodup_upsert trigger keyed.triggers }

end Records

/-! ## Whole lives -/

namespace Store

/-- What a call does. -/
def perform : StoreCall → EStateM StoreError Store Unit
  | .addSource source => change fun r => .ok () (r.addSource source)
  | .addTrigger trigger => change fun r => .ok () (r.addTrigger trigger)
  | .setReportStatus id status => change (Records.setEventReportStatus id status)
  | .transact step => backend.transact step
  | .write w => backend.write w

/-- The states that calls lead to, successful and failed ones. -/
inductive Reachable : Store → Prop
  | empty : Reachable {}
  | ok {s s' : Store} {c : StoreCall} (before : Reachable s) (h : perform c s = .ok () s') :
    Reachable s'
  | error {s s' : Store} {c : StoreCall} {e : StoreError} (before : Reachable s)
    (h : perform c s = .error e s') : Reachable s'

/-- What the empty store has and every call keeps, every reachable store has. -/
theorem Reachable.keeps {inv : Store → Prop} {s : Store} (h : s.Reachable) (start : inv {})
    (keeps : ∀ c, Keeps inv (perform c)) : inv s := by
  induction h with
  | empty => exact start
  | ok _ h ih => exact (keeps _).ok ih h
  | error _ h ih => exact (keeps _).error ih h

/-- Ids are distinct now and in what a rollback would return to. -/
structure WellKeyed (s : Store) : Prop where
  records : s.records.WellKeyed
  snapshot : ∀ r, s.snapshot = some r → r.WellKeyed

theorem keeps_wellKeyed_change {act : EStateM StoreError Records Unit}
    (keeps : Keeps Records.WellKeyed act) : Keeps WellKeyed (change act) := by
  constructor
  · intro s a s' keyed h
    obtain ⟨after, same⟩ := (keeps_change keeps s.snapshot).ok ⟨keyed.records, rfl⟩ h
    exact ⟨after, fun r hr => keyed.snapshot r (same ▸ hr)⟩
  · intro s e s' keyed h
    obtain ⟨after, same⟩ := (keeps_change keeps s.snapshot).error ⟨keyed.records, rfl⟩ h
    exact ⟨after, fun r hr => keyed.snapshot r (same ▸ hr)⟩

theorem keeps_wellKeyed_transact (step : Transaction) : Keeps WellKeyed (transact step) := by
  refine .of_cases fun s keyed => ?_
  unfold transact
  cases left : s.snapshot with
  | none =>
    cases step with
    | begin =>
      refine .inl ⟨(), ⟨s.records, some s.records⟩, by simp only [left], keyed.records, ?_⟩
      intro r same
      exact Option.some.inj same ▸ keyed.records
    | commit | rollback => exact .inr ⟨.noTransaction, by simp only [left]⟩
  | some records =>
    cases step with
    | begin => exact .inr ⟨.transactionInProgress, by simp only [left]⟩
    | commit =>
      refine .inl ⟨(), ⟨s.records, none⟩, by simp only [left], keyed.records, ?_⟩
      intro r impossible
      cases impossible
    | rollback =>
      refine .inl ⟨(), ⟨records, none⟩, by simp only [left], keyed.snapshot records left, ?_⟩
      intro r impossible
      cases impossible

theorem Reachable.wellKeyed {s : Store} (h : s.Reachable) : s.WellKeyed := by
  refine h.keeps ⟨Records.wellKeyed_empty, fun r none => ?_⟩ fun c => ?_
  · cases none
  · cases c with
    | addSource source =>
      exact keeps_wellKeyed_change
        (.of_cases fun r keyed => .inl ⟨_, _, rfl, keyed.addSource source⟩)
    | addTrigger trigger =>
      exact keeps_wellKeyed_change
        (.of_cases fun r keyed => .inl ⟨_, _, rfl, keyed.addTrigger trigger⟩)
    | setReportStatus id status =>
      exact keeps_wellKeyed_change (Records.keeps_wellKeyed_setEventReportStatus id status)
    | transact step => exact keeps_wellKeyed_transact step
    | write w => exact keeps_wellKeyed_change (Records.keeps_wellKeyed_perform w)

end Store

end AttributionReporting
