import AttributionReporting.Proofs.FirstOccurrences
import AttributionReporting.Proofs.Store.Reachable
import AttributionReporting.Proofs.Store.Registry
import AttributionReporting.Sample

/-!
# Stores over maps

An `IndexedStore` keeps sources and triggers in registries, also in the copy that a transaction
makes. After any calls the registries are sound, in the store and in the copy, and the ids stand in
the order in which calls first registered them, apart from calls that a rollback has undone
(`inEffect`). So what an indexed store lists is what `Store` keeps, and both do the same, call for
call (`IndexedStore.run_exact`).
-/

namespace AttributionReporting

/-! ## Indexed records -/

/-- Everything that attribution remembers, with sources and triggers in registries. -/
structure IndexedRecords where
  sources : Registry Source := {}
  triggers : Registry Trigger := {}
  eventReports : List EventReport := []
  aggregateReports : List AggregateReport := []
  attributions : List Attribution := []

namespace IndexedRecords

/-- The records as lists. -/
def view (r : IndexedRecords) : Records where
  sources := r.sources.listed
  triggers := r.triggers.listed
  eventReports := r.eventReports
  aggregateReports := r.aggregateReports
  attributions := r.attributions

def addSource (r : IndexedRecords) (source : Source) : IndexedRecords :=
  { r with sources := r.sources.register source.id source }

def addTrigger (r : IndexedRecords) (trigger : Trigger) : IndexedRecords :=
  { r with triggers := r.triggers.register trigger.id trigger }

def updateSource (id : String) (f : Source → Source) : EStateM StoreError IndexedRecords Unit :=
  fun r =>
    match r.sources.modify? id f with
    | some sources => .ok () { r with sources }
    | none => .error (.unknownSource id) r

def updateTrigger (id : String) (f : Trigger → Trigger) : EStateM StoreError IndexedRecords Unit :=
  fun r =>
    match r.triggers.modify? id f with
    | some triggers => .ok () { r with triggers }
    | none => .error (.unknownTrigger id) r

def insertEventReport (report : EventReport) : EStateM StoreError IndexedRecords Unit := fun r =>
  if r.eventReports.any (·.id == report.id) then .error (.eventReportExists report.id) r
  else .ok () { r with eventReports := r.eventReports ++ [report] }

/-- Takes out the report at the first position with the id. -/
def deleteEventReport (id : String) : EStateM StoreError IndexedRecords Unit := fun r =>
  match r.eventReports.findIdx? (·.id == id) with
  | some position => .ok () { r with eventReports := r.eventReports.eraseIdx position }
  | none => .error (.unknownEventReport id) r

def insertAggregateReport (report : AggregateReport) : EStateM StoreError IndexedRecords Unit :=
  fun r =>
    if r.aggregateReports.any (·.id == report.id) then .error (.aggregateReportExists report.id) r
    else .ok () { r with aggregateReports := r.aggregateReports ++ [report] }

def setEventReportStatus (id : String) (status : EventReportStatus) :
    EStateM StoreError IndexedRecords Unit := fun r =>
  match modifyKey? EventReport.id id (fun report => { report with status }) r.eventReports with
  | some eventReports => .ok () { r with eventReports }
  | none => .error (.unknownEventReport id) r

/-- What a write does to indexed records. -/
def perform : Write → EStateM StoreError IndexedRecords Unit
  | .insertEventReport report => insertEventReport report
  | .deleteEventReport id => deleteEventReport id
  | .insertAggregateReport report => insertAggregateReport report
  | .setEventDedupKeys id keys => updateSource id fun s => { s with eventDedupKeys := keys }
  | .setAggregateDedupKeys id keys => updateSource id fun s => { s with aggregateDedupKeys := keys }
  | .setContributions id contributions => updateSource id fun s => { s with contributions }
  | .setReportSpec id spec => updateSource id fun s => { s with reportSpec := spec }
  | .setSourceStatus ids status => ids.forM fun id => updateSource id fun s => { s with status }
  | .setTriggerStatus ids status => ids.forM fun id => updateTrigger id fun t => { t with status }
  | .insertAttribution attribution => fun r =>
    .ok () { r with attributions := r.attributions ++ [attribution] }

/-- What indexed records answer. -/
def answer {α : Type} (r : IndexedRecords) : Query α → Except StoreError α
  | .pendingTriggers => .ok (r.triggers.listed.filter (·.status == .pending))
  | .trigger id =>
    match r.triggers.byId.get? id with
    | some t => .ok t
    | none => .error (.unknownTrigger id)
  | .matchingSources t => .ok (r.sources.listed.filter (·.matchesTrigger t))
  | query => query.answer r.view

/-- The registries are sound, and ids are distinct among the reports of each kind. -/
structure Sound (r : IndexedRecords) : Prop where
  sources : r.sources.Sound Source.id
  triggers : r.triggers.Sound Trigger.id
  eventReports : (r.eventReports.map EventReport.id).Nodup
  aggregateReports : (r.aggregateReports.map AggregateReport.id).Nodup

end IndexedRecords

/-! ## Indexed stores -/

/-- Indexed records in memory, and what they were when the open transaction began. -/
structure IndexedStore where
  records : IndexedRecords := {}
  snapshot : Option IndexedRecords := none

/-- The state in which a call leaves the store, whether it succeeds or fails. -/
def stateAfter {τ α : Type} : EStateM.Result StoreError τ α → τ
  | .ok _ s => s
  | .error _ s => s

namespace IndexedStore

/-- The store with its records as lists. -/
def view (s : IndexedStore) : Store where
  records := s.records.view
  snapshot := s.snapshot.map IndexedRecords.view

def transact : Transaction → EStateM StoreError IndexedStore Unit
  | .begin => fun s =>
    match s.snapshot with
    | none => .ok () { s with snapshot := some s.records }
    | some _ => .error .transactionInProgress s
  | .commit => fun s =>
    match s.snapshot with
    | some _ => .ok () { s with snapshot := none }
    | none => .error .noTransaction s
  | .rollback => fun s =>
    match s.snapshot with
    | some records => .ok () { records, snapshot := none }
    | none => .error .noTransaction s

def change (act : EStateM StoreError IndexedRecords Unit) : EStateM StoreError IndexedStore Unit :=
  fun s =>
    match act s.records with
    | .ok a records => .ok a { s with records }
    | .error e records => .error e { s with records }

/-- What a call does. -/
def perform : StoreCall → EStateM StoreError IndexedStore Unit
  | .addSource source => change fun r => .ok () (r.addSource source)
  | .addTrigger trigger => change fun r => .ok () (r.addTrigger trigger)
  | .setReportStatus id status => change (IndexedRecords.setEventReportStatus id status)
  | .transact step => transact step
  | .write w => change (IndexedRecords.perform w)

/-- The store after calls, successful and failed ones, from the empty store. -/
def run (calls : List StoreCall) : IndexedStore :=
  calls.foldl (fun s c => stateAfter (perform c s)) {}

/-- The records are sound, and so is what a rollback would return to. -/
structure Sound (s : IndexedStore) : Prop where
  records : s.records.Sound
  snapshot : ∀ r, s.snapshot = some r → r.Sound

/-- `s` is the store with the records as lists, and every call and every question has the same
result there. -/
structure Represents (indexed : IndexedStore) (s : Store) : Prop where
  view : indexed.view = s
  perform : ∀ c, Store.perform c s = mapState IndexedStore.view (perform c indexed)
  answer : ∀ {α : Type} (query : Query α), query.answer s.records = indexed.records.answer query

end IndexedStore

/-- The store after calls, successful and failed ones, from the empty store. -/
def Store.run (calls : List StoreCall) : Store :=
  calls.foldl (fun s c => stateAfter (Store.perform c s)) {}

/-! ## The order of registration -/

/-- Calls that have not been undone, and those of them from before the open transaction. -/
structure History where
  calls : List StoreCall := []
  atBegin : Option (List StoreCall) := none

/-- One more call, which undoes the calls since the transaction began if it is a rollback. -/
def History.record (h : History) : StoreCall → History
  | .transact .begin => { h with atBegin := some (h.atBegin.getD h.calls) }
  | .transact .commit => { h with atBegin := none }
  | .transact .rollback => { calls := h.atBegin.getD h.calls }
  | c => { h with calls := h.calls ++ [c] }

/-- The calls that no rollback has undone. -/
def inEffect (calls : List StoreCall) : List StoreCall := (calls.foldl History.record {}).calls

namespace StoreCall

/-- The source that a call registers. -/
def sourceId? : StoreCall → Option String
  | .addSource source => some source.id
  | _ => none

/-- The trigger that a call registers. -/
def triggerId? : StoreCall → Option String
  | .addTrigger trigger => some trigger.id
  | _ => none

end StoreCall

/-- The ids that calls register, in the order of their first registration. -/
def firstRegistered (id? : StoreCall → Option String) (calls : List StoreCall) : List String :=
  (calls.filterMap id?).eraseDups

section

variable {id? : StoreCall → Option String} {calls : List StoreCall} {c : StoreCall}

theorem firstRegistered_of_none (h : id? c = none) :
    firstRegistered id? (calls ++ [c]) = firstRegistered id? calls := by
  unfold firstRegistered
  rw [List.filterMap_append, List.filterMap_cons_none h, List.filterMap_nil, List.append_nil]

theorem firstRegistered_of_some {id : String} (h : id? c = some id) :
    firstRegistered id? (calls ++ [c]) =
      if id ∈ firstRegistered id? calls then firstRegistered id? calls
      else firstRegistered id? calls ++ [id] := by
  unfold firstRegistered
  rw [List.filterMap_append, List.filterMap_cons_some h, List.filterMap_nil, eraseDups_concat]
  exact if_congr List.mem_eraseDups.symm rfl rfl

end

/-! ## Doing the same -/

section

variable {τ υ β : Type} {inv : τ → Prop} {view : τ → υ}

/-- `act` keeps a property, and as long as it holds does what `shown` does to what is seen of the
state. -/
structure Simulates (inv : τ → Prop) (view : τ → υ) (act : EStateM StoreError τ Unit)
    (shown : EStateM StoreError υ Unit) : Prop where
  keeps : Keeps inv act
  agrees : ∀ s, inv s → shown (view s) = mapState view (act s)

theorem Simulates.of_cases {act : EStateM StoreError τ Unit} {shown : EStateM StoreError υ Unit}
    (ends : ∀ s, inv s →
      (∃ s', act s = .ok () s' ∧ inv s' ∧ shown (view s) = .ok () (view s')) ∨
        ∃ e, act s = .error e s ∧ shown (view s) = .error e (view s)) :
    Simulates inv view act shown where
  keeps := .of_cases fun s start => (ends s start).imp
    (fun ⟨s', done, after, _⟩ => ⟨(), s', done, after⟩) fun ⟨e, failed, _⟩ => ⟨e, failed⟩
  agrees s start := by
    rcases ends s start with ⟨s', done, -, same⟩ | ⟨e, failed, same⟩
    · rw [done, same, mapState]
    · rw [failed, same, mapState]

theorem Simulates.forM {act : β → EStateM StoreError τ Unit} {shown : β → EStateM StoreError υ Unit}
    (one : ∀ b, Simulates inv view (act b) (shown b)) (l : List β) :
    Simulates inv view (l.forM act) (l.forM shown) where
  keeps := .forM fun b _ => (one b).keeps
  agrees _ start :=
    forM_mapState view inv (fun b _ => (one b).keeps) (fun b _ => (one b).agrees) start

theorem stateAfter_mapState {α : Type} (view : τ → υ) (x : EStateM.Result StoreError τ α) :
    stateAfter (mapState view x) = view (stateAfter x) := by
  cases x <;> rfl

theorem Keeps.stateAfter {act : EStateM StoreError τ Unit} (keeps : Keeps inv act) {s : τ}
    (start : inv s) : inv (stateAfter (act s)) := by
  cases h : act s with
  | ok _ s' => exact keeps.ok start h
  | error e s' => exact keeps.error start h

end

/-! ## Indexed records after calls -/

namespace IndexedRecords

/-- The registries are sound, and their orders are those in which `calls` registered the ids. -/
structure After (calls : List StoreCall) (r : IndexedRecords) : Prop where
  sources : r.sources.Sound Source.id
  triggers : r.triggers.Sound Trigger.id
  sourceOrder : r.sources.order = firstRegistered StoreCall.sourceId? calls
  triggerOrder : r.triggers.order = firstRegistered StoreCall.triggerId? calls

variable {calls : List StoreCall}

theorem simulates_updateSource (id : String) {f : Source → Source} (same : ∀ s, (f s).id = s.id) :
    Simulates (After calls) view (updateSource id f) (Records.updateSource id f) := by
  refine .of_cases fun r after => ?_
  have listed := after.sources.modifyKey?_listed id f
  unfold updateSource Records.updateSource
  cases changed : r.sources.modify? id f with
  | none =>
    rw [changed] at listed
    exact .inr ⟨_, rfl, by rw [view, listed]; rfl⟩
  | some sources =>
    rw [changed] at listed
    refine .inl ⟨_, rfl, ?_, by rw [view, listed]; rfl⟩
    exact { after with
      sources := after.sources.modify? same changed
      sourceOrder := (Registry.order_of_modify? changed).trans after.sourceOrder }

theorem simulates_updateTrigger (id : String) {f : Trigger → Trigger}
    (same : ∀ t, (f t).id = t.id) :
    Simulates (After calls) view (updateTrigger id f) (Records.updateTrigger id f) := by
  refine .of_cases fun r after => ?_
  have listed := after.triggers.modifyKey?_listed id f
  unfold updateTrigger Records.updateTrigger
  cases changed : r.triggers.modify? id f with
  | none =>
    rw [changed] at listed
    exact .inr ⟨_, rfl, by rw [view, listed]; rfl⟩
  | some triggers =>
    rw [changed] at listed
    refine .inl ⟨_, rfl, ?_, by rw [view, listed]; rfl⟩
    exact { after with
      triggers := after.triggers.modify? same changed
      triggerOrder := (Registry.order_of_modify? changed).trans after.triggerOrder }

theorem simulates_insertEventReport (report : EventReport) :
    Simulates (After calls) view (insertEventReport report) (Records.insertEventReport report) := by
  refine .of_cases fun r after => ?_
  unfold insertEventReport Records.insertEventReport
  -- Both look at the same reports, so they refuse the same ids.
  by_cases taken : r.eventReports.any (·.id == report.id) = true
  · exact .inr ⟨_, if_pos taken, if_pos taken⟩
  · exact .inl ⟨_, if_neg taken, { after with }, if_neg taken⟩

theorem simulates_deleteEventReport (id : String) :
    Simulates (After calls) view (deleteEventReport id) (Records.deleteEventReport id) := by
  refine .of_cases fun r after => ?_
  have removed : removeKey? EventReport.id id r.eventReports = _ := removeKey?_eq_eraseIdx
  unfold deleteEventReport Records.deleteEventReport
  cases found : r.eventReports.findIdx? (·.id == id) with
  | none =>
    rw [found] at removed
    exact .inr ⟨_, rfl, by rw [view, removed]; rfl⟩
  | some position =>
    rw [found] at removed
    exact .inl ⟨_, rfl, { after with }, by rw [view, removed]; rfl⟩

theorem simulates_insertAggregateReport (report : AggregateReport) :
    Simulates (After calls) view (insertAggregateReport report)
      (Records.insertAggregateReport report) := by
  refine .of_cases fun r after => ?_
  unfold insertAggregateReport Records.insertAggregateReport
  by_cases taken : r.aggregateReports.any (·.id == report.id) = true
  · exact .inr ⟨_, if_pos taken, if_pos taken⟩
  · exact .inl ⟨_, if_neg taken, { after with }, if_neg taken⟩

theorem simulates_setEventReportStatus (id : String) (status : EventReportStatus) :
    Simulates (After calls) view (setEventReportStatus id status)
      (Records.setEventReportStatus id status) := by
  refine .of_cases fun r after => ?_
  unfold setEventReportStatus Records.setEventReportStatus
  cases changed : modifyKey? EventReport.id id (fun report => { report with status })
    r.eventReports with
  | none => exact .inr ⟨_, rfl, by rw [view, changed]⟩
  | some reports => exact .inl ⟨_, rfl, { after with }, by rw [view, changed]; rfl⟩

theorem simulates_perform (w : Write) :
    Simulates (After calls) view (perform w) w.perform := by
  cases w with
  | insertEventReport report => exact simulates_insertEventReport report
  | deleteEventReport id => exact simulates_deleteEventReport id
  | insertAggregateReport report => exact simulates_insertAggregateReport report
  | setEventDedupKeys | setAggregateDedupKeys | setContributions | setReportSpec =>
    exact simulates_updateSource _ fun _ => rfl
  | setSourceStatus ids status =>
    refine .forM (fun id => ?_) ids
    exact simulates_updateSource id fun _ => rfl
  | setTriggerStatus ids status =>
    refine .forM (fun id => ?_) ids
    exact simulates_updateTrigger id fun _ => rfl
  | insertAttribution attribution =>
    exact .of_cases fun r after => .inl ⟨_, rfl, { after with }, rfl⟩

theorem after_empty : After [] {} :=
  ⟨Registry.sound_empty, Registry.sound_empty, rfl, rfl⟩

/-- A call that registers nothing. -/
theorem After.other {r : IndexedRecords} (after : After calls r) {c : StoreCall}
    (source : c.sourceId? = none) (trigger : c.triggerId? = none) : After (calls ++ [c]) r :=
  { after with
    sourceOrder := after.sourceOrder.trans (firstRegistered_of_none source).symm
    triggerOrder := after.triggerOrder.trans (firstRegistered_of_none trigger).symm }

theorem After.addSource {r : IndexedRecords} (after : After calls r) (source : Source) :
    After (calls ++ [.addSource source]) (r.addSource source) where
  sources := after.sources.register source
  triggers := after.triggers
  sourceOrder := by
    rw [firstRegistered_of_some rfl, ← after.sourceOrder]
    exact after.sources.order_register source.id source
  triggerOrder := after.triggerOrder.trans (firstRegistered_of_none rfl).symm

theorem After.addTrigger {r : IndexedRecords} (after : After calls r) (trigger : Trigger) :
    After (calls ++ [.addTrigger trigger]) (r.addTrigger trigger) where
  sources := after.sources
  triggers := after.triggers.register trigger
  sourceOrder := after.sourceOrder.trans (firstRegistered_of_none rfl).symm
  triggerOrder := by
    rw [firstRegistered_of_some rfl, ← after.triggerOrder]
    exact after.triggers.order_register trigger.id trigger

theorem After.view_addSource {r : IndexedRecords} (after : After calls r) (source : Source) :
    (r.addSource source).view = r.view.addSource source :=
  congrArg (fun sources => { r.view with sources }) (after.sources.listed_register source)

theorem After.view_addTrigger {r : IndexedRecords} (after : After calls r) (trigger : Trigger) :
    (r.addTrigger trigger).view = r.view.addTrigger trigger :=
  congrArg (fun triggers => { r.view with triggers }) (after.triggers.listed_register trigger)

theorem After.answer_view {r : IndexedRecords} (after : After calls r) {α : Type}
    (query : Query α) : query.answer r.view = r.answer query := by
  cases query with
  | trigger id =>
    have found : r.view.trigger? id = r.triggers.byId.get? id := after.triggers.find?_listed id
    cases held : r.triggers.byId.get? id with
    | none => simp only [Query.answer, answer, found, held]
    | some t => simp only [Query.answer, answer, found, held]
  | _ => rfl

end IndexedRecords

/-! ## Indexed stores after calls -/

namespace IndexedStore

theorem simulates_change {inv : IndexedRecords → Prop}
    {act : EStateM StoreError IndexedRecords Unit} {shown : EStateM StoreError Records Unit}
    (same : Simulates inv IndexedRecords.view act shown) (snapshot : Option IndexedRecords) :
    Simulates (fun s => inv s.records ∧ s.snapshot = snapshot) view (change act)
      (Store.change shown) where
  keeps := by
    constructor
    · intro s a s' start h
      unfold change at h
      cases done : act s.records with
      | ok _ r =>
        rw [done] at h
        cases h
        exact ⟨same.keeps.ok start.1 done, start.2⟩
      | error e r =>
        rw [done] at h
        cases h
    · intro s e s' start h
      unfold change at h
      cases done : act s.records with
      | ok _ r =>
        rw [done] at h
        cases h
      | error e r =>
        rw [done] at h
        cases h
        exact ⟨same.keeps.error start.1 done, start.2⟩
  agrees s start := by
    have agrees : shown s.view.records = _ := same.agrees s.records start.1
    unfold change Store.change
    rw [agrees]
    cases act s.records <;> rfl

/-- The records come from the calls of a history, and what a rollback would return to from those
before the open transaction. -/
structure Follows (h : History) (s : IndexedStore) : Prop where
  records : s.records.After h.calls
  snapshot : Option.Rel IndexedRecords.After h.atBegin s.snapshot

variable {h : History} {s : IndexedStore}

theorem Follows.change (follows : Follows h s) {c : StoreCall}
    (recorded : h.record c = { h with calls := h.calls ++ [c] })
    (source : c.sourceId? = none) (trigger : c.triggerId? = none)
    {act : EStateM StoreError IndexedRecords Unit} {shown : EStateM StoreError Records Unit}
    (same : Simulates (IndexedRecords.After h.calls) IndexedRecords.view act shown) :
    Store.change shown s.view = mapState view (change act s) ∧
      Follows (h.record c) (stateAfter (change act s)) := by
  have changes := simulates_change same s.snapshot
  obtain ⟨records, snapshot⟩ := changes.keeps.stateAfter ⟨follows.records, rfl⟩
  refine ⟨changes.agrees s ⟨follows.records, rfl⟩, ?_⟩
  rw [recorded]
  refine ⟨records.other source trigger, ?_⟩
  rw [snapshot]
  exact follows.snapshot

theorem Follows.transact (follows : Follows h s) (step : Transaction) :
    Store.transact step s.view = mapState view (transact step s) ∧
      Follows (h.record (.transact step)) (stateAfter (transact step s)) := by
  obtain ⟨records, snapshot⟩ := s
  obtain ⟨calls, atBegin⟩ := h
  obtain ⟨now, before⟩ := follows
  cases before with
  | none =>
    cases step with
    | begin => exact ⟨rfl, now, .some now⟩
    | commit => exact ⟨rfl, now, .none⟩
    | rollback => exact ⟨rfl, now, .none⟩
  | some stood =>
    cases step with
    | begin => exact ⟨rfl, now, .some stood⟩
    | commit => exact ⟨rfl, now, .none⟩
    | rollback => exact ⟨rfl, stood, .none⟩

/-- One call. -/
theorem Follows.perform (follows : Follows h s) (c : StoreCall) :
    Store.perform c s.view = mapState view (perform c s) ∧
      Follows (h.record c) (stateAfter (perform c s)) := by
  cases c with
  | addSource source =>
    refine ⟨?_, follows.records.addSource source, follows.snapshot⟩
    exact congrArg (fun records => EStateM.Result.ok () { s.view with records })
      (follows.records.view_addSource source).symm
  | addTrigger trigger =>
    refine ⟨?_, follows.records.addTrigger trigger, follows.snapshot⟩
    exact congrArg (fun records => EStateM.Result.ok () { s.view with records })
      (follows.records.view_addTrigger trigger).symm
  | setReportStatus id status =>
    exact follows.change rfl rfl rfl (IndexedRecords.simulates_setEventReportStatus id status)
  | transact step => exact follows.transact step
  | write w => exact follows.change rfl rfl rfl (IndexedRecords.simulates_perform w)

theorem run_concat (calls : List StoreCall) (c : StoreCall) :
    run (calls ++ [c]) = stateAfter (perform c (run calls)) := by
  unfold run
  rw [List.foldl_append, List.foldl_cons, List.foldl_nil]

theorem follows_run (calls : List StoreCall) :
    Follows (calls.foldl History.record {}) (run calls) := by
  induction calls using List.reverseRecOn with
  | nil => exact ⟨IndexedRecords.after_empty, .none⟩
  | append_singleton calls c ih =>
    rw [run_concat, List.foldl_append, List.foldl_cons, List.foldl_nil]
    exact (ih.perform c).2

end IndexedStore

namespace Store

theorem run_concat (calls : List StoreCall) (c : StoreCall) :
    run (calls ++ [c]) = stateAfter (perform c (run calls)) := by
  unfold run
  rw [List.foldl_append, List.foldl_cons, List.foldl_nil]

theorem reachable_run (calls : List StoreCall) : (run calls).Reachable := by
  induction calls using List.reverseRecOn with
  | nil => exact .empty
  | append_singleton calls c ih =>
    rw [run_concat]
    cases done : perform c (run calls) with
    | ok _ s => exact .ok ih done
    | error e s => exact .error ih done

/-- While ids are distinct, deleting a report succeeds when there is one with the id. -/
theorem deleteEventReport_eq_ok_iff {s s' : Store} (keyed : s.records.WellKeyed) {id : String} :
    perform (.write (.deleteEventReport id)) s = .ok () s' ↔
      ∃ before report after, s.records.eventReports = before ++ report :: after ∧ report.id = id ∧
        id ∉ (before ++ after).map EventReport.id ∧
        s' = { s with records := { s.records with eventReports := before ++ after } } := by
  have removed {left : List EventReport} :
      removeKey? EventReport.id id s.records.eventReports = some left ↔ _ :=
    removeKey?_eq_some_iff keyed.eventReports
  show change (Records.deleteEventReport id) s = _ ↔ _
  unfold change Records.deleteEventReport
  constructor
  · intro h
    cases found : removeKey? EventReport.id id s.records.eventReports with
    | none =>
      rw [found] at h
      cases h
    | some left =>
      rw [found] at h
      cases h
      obtain ⟨before, report, after, split, same, fresh, rfl⟩ := removed.1 found
      exact ⟨before, report, after, split, same, fresh, rfl⟩
  · rintro ⟨before, report, after, split, same, fresh, rfl⟩
    rw [removed.2 ⟨before, report, after, split, same, fresh, rfl⟩]

end Store

namespace IndexedStore

theorem view_run (calls : List StoreCall) : (run calls).view = Store.run calls := by
  induction calls using List.reverseRecOn with
  | nil => rfl
  | append_singleton calls c ih =>
    rw [run_concat, Store.run_concat, ← ih, ((follows_run calls).perform c).1, stateAfter_mapState]

theorem represents_run (calls : List StoreCall) : (run calls).Represents (Store.run calls) where
  view := view_run calls
  perform c := by
    rw [← view_run]
    exact ((follows_run calls).perform c).1
  answer query := by
    rw [← view_run]
    exact (follows_run calls).records.answer_view query

theorem sound_of_after {calls : List StoreCall} {r : IndexedRecords} (after : r.After calls)
    (keyed : r.view.WellKeyed) : r.Sound :=
  ⟨after.sources, after.triggers, keyed.eventReports, keyed.aggregateReports⟩

theorem sound_run (calls : List StoreCall) : (run calls).Sound := by
  have keyed := (Store.reachable_run calls).wellKeyed
  rw [← view_run] at keyed
  obtain ⟨now, before⟩ := follows_run calls
  refine ⟨sound_of_after now keyed.records, fun r left => ?_⟩
  -- The copy comes from calls as well, those from before the open transaction.
  rw [left] at before
  generalize (calls.foldl History.record {}).atBegin = stood at before
  cases before with
  | some after =>
    refine sound_of_after after (keyed.snapshot r.view ?_)
    rw [view, left]
    rfl

/-- After any calls the indexed store is sound, and the store with lists does the same as it does.
Ids stand in the order in which they were first registered. The pending triggers, and the sources
that a trigger may be attributed to, are listed in that order, each once. Deleting an event report
takes out exactly one and leaves the others in their order. -/
theorem run_exact (calls : List StoreCall) :
    (run calls).Sound ∧ (run calls).Represents (Store.run calls) ∧
    (run calls).records.sources.order = firstRegistered StoreCall.sourceId? (inEffect calls) ∧
    (run calls).records.triggers.order = firstRegistered StoreCall.triggerId? (inEffect calls) ∧
    (∃ pending, Query.pendingTriggers.answer (Store.run calls).records = .ok pending ∧
      (run calls).records.triggers.Lists Trigger.id (·.status == .pending) pending) ∧
    (∀ trigger : Trigger, ∃ matching,
      (Query.matchingSources trigger).answer (Store.run calls).records = .ok matching ∧
      (run calls).records.sources.Lists Source.id (·.matchesTrigger trigger) matching) ∧
    ∀ (id : String) (s' : Store),
      Store.perform (.write (.deleteEventReport id)) (Store.run calls) = .ok () s' ↔
        ∃ before report after,
          (Store.run calls).records.eventReports = before ++ report :: after ∧ report.id = id ∧
          id ∉ (before ++ after).map EventReport.id ∧
          s' = { Store.run calls with
            records := { (Store.run calls).records with eventReports := before ++ after } } := by
  have represents := represents_run calls
  obtain ⟨⟨sources, triggers, sourceOrder, triggerOrder⟩, -⟩ := follows_run calls
  refine ⟨sound_run calls, represents, sourceOrder, triggerOrder, ⟨_, represents.answer _, ?_⟩,
    fun trigger => ⟨_, represents.answer _, ?_⟩, fun id s' => ?_⟩
  · exact triggers.lists_filter _
  · exact sources.lists_filter _
  · exact Store.deleteEventReport_eq_ok_iff (Store.reachable_run calls).wellKeyed.records

/-- The sample source under another id. -/
def sampleSource (id : String) : Source := { Sample.source with id }

/-- Source `b` is registered before `a`, but in a transaction that is undone. Registering `a` again
does not move it, and the last call fails. -/
def sampleCalls : List StoreCall :=
  [.transact .begin, .addSource (sampleSource "b"), .transact .rollback,
    .addSource (sampleSource "a"), .addSource (sampleSource "b"), .addSource (sampleSource "a"),
    .transact .commit]

example : (run sampleCalls).records.sources.order = ["a", "b"] := by decide
example : firstRegistered StoreCall.sourceId? (inEffect sampleCalls) = ["a", "b"] := by decide

end IndexedStore

end AttributionReporting
