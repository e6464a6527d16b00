import AttributionReporting.Proofs.EventReport.Standard
import AttributionReporting.Proofs.Flexible.Run
import AttributionReporting.Proofs.Job.Plan

/-!
# The event path as an exchange of reports

Whether the source is plain or flexible, the event path deletes some of its reports and inserts
others (`eventExchange`, `foldlM_planEvent`). What is deleted was among the reports of the source,
and what is inserted is a pending report of it.
-/

namespace AttributionReporting

namespace Job

/-- The reports that the event path inserts, and those that it deletes. -/
def eventExchange (cfg : JobConfig) (source : Source) (trigger : Trigger)
    (datum : EventTriggerDatum) (existing : List EventReport) :
    List EventReport × List EventReport :=
  match source.reportSpec with
  | some spec =>
    match spec.credit source (trigger.attributedWith datum) existing
        (reportContext cfg source spec trigger) with
    | .reports _ insert delete => (insert, delete)
    | .historyOnly _ | .rejected _ => ([], [])
  | none =>
    match decideStandardReport source trigger datum existing cfg.limits
        (cfg.rates.rateOf source) with
    | .insert report replaces => ([report], replaces.toList)
    | .drop _ => ([], [])

variable {cfg : JobConfig} {source : Source} {trigger : Trigger} {datum : EventTriggerDatum}
  {existing stored insert delete : List EventReport}

theorem foldlM_deletes (delete stored : List EventReport) :
    (delete.map fun r => Write.deleteEventReport r.id).foldlM (fun l w => w.onEventReports l)
      stored = deleteReports? delete stored := by
  induction delete generalizing stored with
  | nil => rfl
  | cons r rest ih =>
    rw [List.map_cons, List.foldlM_cons, deleteReports?]
    exact congrArg _ (funext ih)

theorem foldlM_inserts (insert stored : List EventReport) :
    (insert.map Write.insertEventReport).foldlM (fun l w => w.onEventReports l) stored =
      insertReports? insert stored := by
  induction insert generalizing stored with
  | nil => rfl
  | cons r rest ih =>
    rw [List.map_cons, List.foldlM_cons, insertReports?]
    show (bif stored.any (·.id == r.id) then none else some (stored ++ [r])).bind _ = _
    cases stored.any (·.id == r.id) with
    | true => rfl
    | false => exact ih (stored ++ [r])

/-- The writes of the event path exchange reports. -/
theorem foldlM_planEvent {writes : List Write}
    (h : planEvent cfg source trigger datum existing = some writes) (stored : List EventReport) :
    writes.foldlM (fun l w => w.onEventReports l) stored =
      exchangeReports? (eventExchange cfg source trigger datum existing).1
        (eventExchange cfg source trigger datum existing).2 stored := by
  unfold eventExchange
  rcases planEvent_cases h with ⟨spec, next, rules, outcome, rfl⟩ |
    ⟨spec, next, insert, delete, rules, outcome, rfl⟩ | ⟨report, replaces, rules, decision, rfl⟩
  · simp only [rules, outcome]
    rfl
  · simp only [rules, outcome, List.foldlM_append, foldlM_deletes, foldlM_inserts]
    exact Option.bind_fun_some _
  · -- deleting and inserting one report each, with the dedup key recorded in between
    have deletes : (replaces.map fun r => Write.deleteEventReport r.id).toList =
        replaces.toList.map fun r => Write.deleteEventReport r.id := by
      cases replaces <;> rfl
    have quiet : ∀ w ∈ (datum.dedupKey.map fun key =>
        Write.setEventDedupKeys source.id (source.eventDedupKeys ++ [key])).toList,
        w.onEventReports = some := by
      cases datum.dedupKey with
      | none => simp
      | some key => simp [Write.onEventReports]
    simp only [rules, decision, deletes, List.foldlM_append, foldlM_deletes,
      foldlM_of_forall_some quiet]
    unfold exchangeReports?
    cases deleteReports? replaces.toList stored with
    | none => rfl
    | some left => exact foldlM_inserts [report] left

/-! ## What is exchanged -/

/-- Nothing is exchanged, or a flexible source has its reports reconciled, or a plain one gets a
report. -/
theorem eventExchange_cases (cfg : JobConfig) (source : Source) (trigger : Trigger)
    (datum : EventTriggerDatum) (existing : List EventReport) :
    eventExchange cfg source trigger datum existing = ([], []) ∨
      (∃ spec, source.reportSpec = some spec ∧
        reconcile spec.maxReports ((spec.record (trigger.attributedWith datum)).desired source
            (reportContext cfg source spec trigger)) existing
          (reportContext cfg source spec trigger).now =
          eventExchange cfg source trigger datum existing) ∨
      ∃ report replaces, source.reportSpec = none ∧
        decideStandardReport source trigger datum existing cfg.limits (cfg.rates.rateOf source) =
          .insert report replaces ∧
        eventExchange cfg source trigger datum existing = ([report], replaces.toList) := by
  unfold eventExchange
  split
  · next spec rules =>
    split
    · next outcome =>
      obtain ⟨rfl, -, eq⟩ := ReportSpec.credit_eq_reports outcome
      exact .inr (.inl ⟨spec, rules, eq⟩)
    · exact .inl rfl
    · exact .inl rfl
  · next rules =>
    split
    · next report replaces decision => exact .inr (.inr ⟨report, replaces, rules, decision, rfl⟩)
    · exact .inl rfl

theorem of_mem_delete_eventExchange {r : EventReport}
    (h : r ∈ (eventExchange cfg source trigger datum existing).2) :
    r ∈ existing ∧ r.isStanding = true := by
  rcases eventExchange_cases cfg source trigger datum existing with none | ⟨spec, -, eq⟩ |
    ⟨report, replaces, -, decision, eq⟩
  · rw [none] at h
    cases h
  · obtain ⟨mem, standing, -⟩ := mem_changeableReports.1 (mem_of_mem_delete eq h)
    exact ⟨mem, standing⟩
  · rw [eq] at h
    obtain ⟨-, -, -, -, ⟨-, rfl⟩ | ⟨lowest, mem, rfl, pending, -⟩⟩ :=
      decideStandardReport_eq_insert decision
    · cases h
    · rw [Option.toList_some, List.mem_singleton] at h
      rw [h, EventReport.isStanding, pending]
      exact ⟨mem, rfl⟩

theorem nodup_delete_eventExchange (ids : (existing.map EventReport.id).Nodup) :
    ((eventExchange cfg source trigger datum existing).2.map EventReport.id).Nodup := by
  rcases eventExchange_cases cfg source trigger datum existing with none | ⟨spec, -, eq⟩ |
    ⟨report, replaces, -, -, eq⟩
  · rw [none]
    exact List.nodup_nil
  · exact nodup_delete_ids ids eq
  · rw [eq]
    cases replaces with
    | none => exact List.nodup_nil
    | some r => exact List.nodup_singleton r.id

theorem of_mem_insert_eventExchange {r : EventReport}
    (h : r ∈ (eventExchange cfg source trigger datum existing).1) :
    r.sourceId = source.id ∧ r.status = .pending := by
  rcases eventExchange_cases cfg source trigger datum existing with none | ⟨spec, -, eq⟩ |
    ⟨report, replaces, -, decision, eq⟩
  · rw [none] at h
    cases h
  · exact (ReportSpec.desired_pending (mem_of_mem_openReports (mem_of_mem_insert eq h)).1).symm
  · obtain ⟨_, -, -, rfl, -⟩ := decideStandardReport_eq_insert decision
    rw [eq, List.mem_singleton] at h
    rw [h]
    exact ⟨rfl, rfl⟩

/-- Only stored reports of the source are deleted. -/
theorem own_delete_eventExchange {r : EventReport}
    (h : r ∈ (eventExchange cfg source trigger datum
      (stored.filter (·.sourceId == source.id))).2) : r ∈ stored ∧ r.sourceId = source.id := by
  obtain ⟨mem, same⟩ := List.mem_filter.1 (of_mem_delete_eventExchange h).1
  exact ⟨mem, beq_iff_eq.1 same⟩

/-- While the ids of the stored reports are distinct, the exchange fails only when an id would be
taken twice. -/
theorem eventExchange_eq_some_iff {after : List EventReport}
    (ids : (stored.map EventReport.id).Nodup) :
    exchangeReports?
        (eventExchange cfg source trigger datum (stored.filter (·.sourceId == source.id))).1
        (eventExchange cfg source trigger datum (stored.filter (·.sourceId == source.id))).2
        stored = some after ↔
      after = remainingReports
          (eventExchange cfg source trigger datum (stored.filter (·.sourceId == source.id))).2
          stored ++
        (eventExchange cfg source trigger datum (stored.filter (·.sourceId == source.id))).1 ∧
      (after.map EventReport.id).Nodup := by
  apply exchangeReports?_eq_some_iff ids
  · exact nodup_delete_eventExchange (ids.sublist (List.filter_sublist.map _))
  · exact fun r hr => List.mem_map_of_mem (own_delete_eventExchange hr).1

/-- The event path inserts what the exchange inserts. -/
theorem insert_mem_planEvent_iff {writes : List Write} {r : EventReport}
    (h : planEvent cfg source trigger datum existing = some writes) :
    .insertEventReport r ∈ writes ↔ r ∈ (eventExchange cfg source trigger datum existing).1 := by
  unfold eventExchange
  rcases planEvent_cases h with ⟨spec, next, rules, outcome, rfl⟩ |
    ⟨spec, next, insert, delete, rules, outcome, rfl⟩ | ⟨report, replaces, rules, decision, rfl⟩
  · simp [rules, outcome]
  · simp [rules, outcome]
  · simp [rules, decision]

/-- The event path deletes what the exchange deletes. -/
theorem delete_mem_planEvent_iff {writes : List Write} {id : String}
    (h : planEvent cfg source trigger datum existing = some writes) :
    .deleteEventReport id ∈ writes ↔
      id ∈ (eventExchange cfg source trigger datum existing).2.map EventReport.id := by
  unfold eventExchange
  rcases planEvent_cases h with ⟨spec, next, rules, outcome, rfl⟩ |
    ⟨spec, next, insert, delete, rules, outcome, rfl⟩ | ⟨report, replaces, rules, decision, rfl⟩
  · simp [rules, outcome]
  · simp [rules, outcome]
  · simp [rules, decision]

/-! ## What processing a trigger does to the event reports -/

theorem onEventReports_aggregateWrites {r : Records} {draws : Draws} {w : Write}
    (h : w ∈ (aggregateWrites cfg r source trigger draws).1.getD []) : w.onEventReports = some := by
  rcases of_mem_aggregateWrites h with ⟨_, rfl⟩ | ⟨_, rfl⟩ | ⟨_, rfl⟩ <;> rfl

theorem onEventReports_planAttribution {losers : List Source} {w : Write}
    (h : w ∈ planAttribution source losers trigger) : w.onEventReports = some := by
  rcases of_mem_planAttribution h with rfl | rfl | rfl <;> rfl

/-- Of the writes of an attribution only those of the event path concern event reports. -/
theorem foldlM_onEventReports_attribution {r : Records} {losers : List Source} {draws : Draws}
    (l : List EventReport) :
    ((eventWrites cfg r source trigger).getD [] ++
      ((aggregateWrites cfg r source trigger draws).1.getD [] ++
        planAttribution source losers trigger)).foldlM (fun l w => w.onEventReports l) l =
      ((eventWrites cfg r source trigger).getD []).foldlM (fun l w => w.onEventReports l) l := by
  have quiet : ∀ w ∈ (aggregateWrites cfg r source trigger draws).1.getD [] ++
      planAttribution source losers trigger, w.onEventReports = some := by
    intro w hw
    rcases List.mem_append.1 hw with aggregate | closing
    · exact onEventReports_aggregateWrites aggregate
    · exact onEventReports_planAttribution closing
  rw [List.foldlM_append]
  simp only [foldlM_of_forall_some quiet]
  exact Option.bind_fun_some _

/-- An attribution leaves the event reports alone, or exchanges them along the event path. -/
theorem eventReports_of_attribution {r r' : Records} {losers : List Source} {draws : Draws}
    (h : performAll ((eventWrites cfg r source trigger).getD [] ++
      ((aggregateWrites cfg r source trigger draws).1.getD [] ++
        planAttribution source losers trigger)) r = .ok () r') :
    (eventWrites cfg r source trigger = none ∧ r'.eventReports = r.eventReports) ∨
      ∃ writes datum, selectDatum source trigger = some datum ∧
        eventWrites cfg r source trigger = some writes ∧
        planEvent cfg source trigger datum (r.eventReports.filter (·.sourceId == source.id)) =
          some writes ∧
        exchangeReports?
            (eventExchange cfg source trigger datum
              (r.eventReports.filter (·.sourceId == source.id))).1
            (eventExchange cfg source trigger datum
              (r.eventReports.filter (·.sourceId == source.id))).2 r.eventReports =
          some r'.eventReports := by
  obtain ⟨-, -, eq, -⟩ := performAll_eq_ok_iff.1 h
  rw [foldlM_onEventReports_attribution] at eq
  rcases found : eventWrites cfg r source trigger with _ | event
  · rw [found] at eq
    exact .inl ⟨rfl, (Option.some.inj eq).symm⟩
  · rw [found, Option.getD_some] at eq
    obtain ⟨datum, selected, -, planned⟩ := eventWrites_eq_some found
    rw [foldlM_planEvent planned] at eq
    exact .inr ⟨event, datum, selected, rfl, planned, eq⟩

/-- Processing a trigger leaves the event reports alone, or exchanges reports of the source that
won it. -/
theorem eventReports_of_performAll {r r' : Records} {draws : Draws}
    (h : performAll (triggerPlan cfg r trigger draws).writes r = .ok () r') :
    r'.eventReports = r.eventReports ∨
      ∃ source losers datum,
        selectSource (r.sources.filter (·.matchesTrigger trigger)) trigger = some (source, losers) ∧
          exchangeReports?
              (eventExchange cfg source trigger datum
                (r.eventReports.filter (·.sourceId == source.id))).1
              (eventExchange cfg source trigger datum
                (r.eventReports.filter (·.sourceId == source.id))).2 r.eventReports =
            some r'.eventReports := by
  rcases triggerPlan_cases cfg r trigger draws with ⟨-, -, writes⟩ | ⟨-, -, writes⟩ |
    ⟨source, losers, -, won, -, -, -, -, -, writes⟩
  · rw [writes] at h
    obtain ⟨-, -, eq, -⟩ := performAll_eq_ok_iff.1 h
    exact .inl (Option.some.inj eq).symm
  · rw [writes] at h
    obtain ⟨-, -, eq, -⟩ := performAll_eq_ok_iff.1 h
    exact .inl (Option.some.inj eq).symm
  · rw [writes] at h
    rcases eventReports_of_attribution h with ⟨-, same⟩ | ⟨_, datum, -, -, -, eq⟩
    · exact .inl same
    · exact .inr ⟨source, losers, datum, won, eq⟩

end Job

end AttributionReporting
