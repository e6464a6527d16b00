import AttributionReporting.Proofs.Flexible.Completeness
import AttributionReporting.Proofs.Job.Provenance

/-!
# When a trigger cannot be processed

A store refuses to insert a report whose id is taken. While no id of a source or trigger has a
colon, ids of reports tell what is reported, and no trigger is reported twice, with one exception:
reconciliation does not see the reports of a flexible source that are marked to be deleted, and may
want one of them again. Processing a trigger fails exactly when its plan inserts such a report, and
since nothing is changed by that it fails every time (`process_ok_iff`). Such a trigger stays
pending (`process_refused`).
-/

namespace AttributionReporting

/-! ## Writes that succeed -/

theorem exists_foldlM_modifyKey? {α : Type} {key : α → String} {f : α → α}
    (same : ∀ a, key (f a) = key a) {keys : List String} {l : List α} (distinct : (l.map key).Nodup)
    (sub : ∀ k ∈ keys, k ∈ l.map key) :
    ∃ l', keys.foldlM (fun l k => modifyKey? key k f l) l = some l' := by
  induction keys generalizing l with
  | nil => exact ⟨l, rfl⟩
  | cons k rest ih =>
    obtain ⟨first, others⟩ := List.forall_mem_cons.1 sub
    have changed := (modifyKey?_of_nodup (f := f) distinct).trans (if_pos first)
    have kept : List.map key _ = l.map key := map_of_modifyKey? changed fun a _ _ => same a
    rw [List.foldlM_cons, changed]
    exact ih (kept ▸ distinct) (kept ▸ others)

/-- Writes in turn succeed when they lead somewhere for each kind of record. -/
theorem exists_performAll_iff {writes : List Write} {r : Records} :
    (∃ r', performAll writes r = .ok () r') ↔
      (∃ l, writes.foldlM (fun l w => w.onSources l) r.sources = some l) ∧
        (∃ l, writes.foldlM (fun l w => w.onTriggers l) r.triggers = some l) ∧
          (∃ l, writes.foldlM (fun l w => w.onEventReports l) r.eventReports = some l) ∧
            (∃ l, writes.foldlM (fun l w => w.onAggregateReports l) r.aggregateReports = some l) ∧
              ∃ l, writes.foldlM (fun l w => w.onAttributions l) r.attributions = some l := by
  constructor
  · rintro ⟨r', performed⟩
    obtain ⟨s, t, e, a, at'⟩ := performAll_eq_ok_iff.1 performed
    exact ⟨⟨_, s⟩, ⟨_, t⟩, ⟨_, e⟩, ⟨_, a⟩, ⟨_, at'⟩⟩
  · rintro ⟨⟨sources, s⟩, ⟨triggers, t⟩, ⟨events, e⟩, ⟨aggregates, a⟩, ⟨attributions, at'⟩⟩
    exact ⟨⟨sources, triggers, events, aggregates, attributions⟩,
      performAll_eq_ok_iff.2 ⟨s, t, e, a, at'⟩⟩

/-! ## Ids of the records -/

/-- No id of a source or trigger has a colon, and the id of a report says what is reported. -/
structure Records.Labelled (r : Records) : Prop where
  sources : ∀ id ∈ r.sources.map Source.id, Colonless id
  triggers : ∀ id ∈ r.triggers.map Trigger.id, Colonless id
  events : ∀ report ∈ r.eventReports, report.id = report.ownId
  aggregates : ∀ report ∈ r.aggregateReports,
    report.id = report.sourceId ++ ":" ++ report.triggerId ++ ":aggregate"

theorem EventReport.isStanding_iff {report : EventReport} :
    report.isStanding = true ↔ report.status ≠ .markedToDelete := by
  unfold isStanding
  cases report.status <;> simp

theorem ReportSpec.id_of_mem_desired {spec : ReportSpec} {source : Source} {ctx : ReportContext}
    {report : EventReport} (h : report ∈ spec.desired source ctx) : report.id = report.ownId := by
  rw [desired_eq_map] at h
  obtain ⟨c, -, rfl⟩ := List.mem_map.1 h
  rfl

namespace Job

variable {cfg : JobConfig} {r : Records} {source : Source} {losers : List Source}
  {trigger : Trigger} {draws : Draws}
  {winner credited : Source} {deleted inserted : List EventReport} {delay : Int}
  {report s : EventReport}

theorem exists_onTriggers_setTriggerStatus {l : List Trigger} (ids : (l.map Trigger.id).Nodup)
    (stored : trigger ∈ l) (status : TriggerStatus) :
    ∃ l', (Write.setTriggerStatus [trigger.id] status).onTriggers l = some l' :=
  exists_foldlM_modifyKey? (fun _ => by rfl) ids fun _ hk =>
    List.mem_singleton.1 hk ▸ List.mem_map_of_mem stored

theorem exists_onSources_planAttribution {l : List Source} (ids : (l.map Source.id).Nodup)
    (sub : ∀ loser ∈ losers, loser.id ∈ l.map Source.id) :
    ∃ l', (planAttribution source losers trigger).foldlM (fun l w => w.onSources l) l =
      some l' := by
  unfold planAttribution
  cases losers with
  | nil => exact ⟨l, rfl⟩
  | cons first rest =>
    have found : ∀ k ∈ (first :: rest).map Source.id, k ∈ l.map Source.id := by
      intro k hk
      obtain ⟨loser, hl, rfl⟩ := List.mem_map.1 hk
      exact sub loser hl
    obtain ⟨l', ignored⟩ : ∃ l', (Write.setSourceStatus ((first :: rest).map Source.id)
        .ignored).onSources l = some l' :=
      exists_foldlM_modifyKey? (fun _ => by rfl) ids found
    refine ⟨l', ?_⟩
    rw [List.isEmpty_cons, if_neg Bool.false_ne_true, List.foldlM_append, List.foldlM_cons, ignored]
    rfl

/-- The writes of an attribution succeed unless reports are refused: the sources and the trigger are
all there. -/
theorem exists_performAll_attribution_iff (keyed : r.WellKeyed) (stored : trigger ∈ r.triggers)
    (won : selectSource (r.sources.filter (·.matchesTrigger trigger)) trigger =
      some (source, losers)) :
    (∃ r', performAll ((eventWrites cfg r source trigger).getD [] ++
      ((aggregateWrites cfg r source trigger draws).1.getD [] ++
        planAttribution source losers trigger)) r = .ok () r') ↔
      (∃ l, ((eventWrites cfg r source trigger).getD []).foldlM (fun l w => w.onEventReports l)
        r.eventReports = some l) ∧
      ∃ l, ((aggregateWrites cfg r source trigger draws).1.getD []).foldlM
        (fun l w => w.onAggregateReports l) r.aggregateReports = some l := by
  have perm := selectSource_perm won
  have sources : ∃ l, ((eventWrites cfg r source trigger).getD [] ++
      ((aggregateWrites cfg r source trigger draws).1.getD [] ++
        planAttribution source losers trigger)).foldlM (fun l w => w.onSources l) r.sources =
          some l := by
    have same := Write.map_id_credit (Write.creditAll_id
      ((eventWrites cfg r source trigger).getD [] ++
        (aggregateWrites cfg r source trigger draws).1.getD [])) source.id r.sources
    rw [foldlM_onSources_attribution keyed.sources (of_selectSource won).1]
    refine exists_onSources_planAttribution (same ▸ keyed.sources) fun loser hl => ?_
    rw [same]
    exact List.mem_map_of_mem
      (List.mem_of_mem_filter (perm.subset (List.mem_cons_of_mem source hl)))
  rw [exists_performAll_iff, foldlM_onTriggers_attribution, foldlM_onEventReports_attribution,
    foldlM_onAggregateReports_attribution, foldlM_onAttributions_attribution]
  exact ⟨fun ⟨_, _, e, a, _⟩ => ⟨e, a⟩, fun ⟨e, a⟩ => ⟨sources,
    exists_onTriggers_setTriggerStatus keyed.triggers stored .attributed, e, a, ⟨_, rfl⟩⟩⟩

/-! ## Ids of reports -/

theorem EventCredit.id_eq (h : EventCredit cfg r winner trigger credited deleted inserted)
    (mem : report ∈ inserted) : report.id = report.ownId := by
  rcases h.inserted_cases mem with ⟨before, datum, -, -, -, desired⟩ | ⟨datum, time, -, -, rfl⟩
  · exact ReportSpec.id_of_mem_desired desired
  · rfl

theorem AggregateCredit.id_eq {aggregate : Option AggregateReport} {report : AggregateReport}
    (h : AggregateCredit cfg r winner trigger credited aggregate) (mem : report ∈ aggregate) :
    report.id = report.sourceId ++ ":" ++ report.triggerId ++ ":aggregate" := by
  obtain ⟨delay, rfl⟩ := h.exists_eq mem
  rfl

theorem Life.labelled {P : Source → Prop} {Q : Trigger → Prop}
    (sources : ∀ source, P source → Colonless source.id)
    (triggers : ∀ trigger, Q trigger → Colonless trigger.id)
    (h : Life cfg (· = {}) (RegistersOnce P Q) r) : r.Labelled := by
  refine (h.outcomes Records.Labelled ?_ ?_ ?_ ?_ ?_ ?_).2
  · rintro r rfl
    exact ⟨Records.wellKeyed_empty, by simp, by simp, by simp, by simp⟩
  · rintro r source - inv ⟨new, registers⟩
    refine ⟨fun id mem => ?_, inv.triggers, inv.events, inv.aggregates⟩
    rw [Records.map_id_addSource new, List.mem_append, List.mem_singleton] at mem
    rcases mem with before | rfl
    · exact inv.sources id before
    · exact sources source registers
  · rintro r trigger - inv ⟨new, registers⟩
    refine ⟨inv.sources, fun id mem => ?_, inv.events, inv.aggregates⟩
    rw [Records.map_id_addTrigger new, List.mem_append, List.mem_singleton] at mem
    rcases mem with before | rfl
    · exact inv.triggers id before
    · exact triggers trigger registers
  · intro r id status _ inv _
    refine ⟨inv.sources, inv.triggers, fun report mem => ?_, inv.aggregates⟩
    obtain ⟨before, stored, rfl⟩ := List.mem_map.1 mem
    split_ifs
    · exact inv.events before stored
    · exact inv.events before stored
  · intro r trigger _ inv _ _
    have ids := r.map_id_setTriggerStatus trigger.id .ignored
    exact ⟨inv.sources, ids ▸ inv.triggers, inv.events, inv.aggregates⟩
  · intro r trigger a _ inv _ _ earned _
    have ids := r.map_id_setTriggerStatus trigger.id .attributed
    refine ⟨earned.map_id_apply ▸ inv.sources, ids ▸ inv.triggers, fun report mem => ?_,
      fun report mem => ?_⟩
    · rcases List.mem_append.1 mem with left | inserted
      · exact inv.events report (List.mem_of_mem_filter left)
      · exact earned.eventCredit.id_eq inserted
    · rcases List.mem_append.1 mem with before | inserted
      · exact inv.aggregates report before
      · exact earned.aggregateCredit.id_eq (Option.mem_toList.1 inserted)

/-! ## Reports that are refused -/

namespace EventCredit

theorem deleted_standing (h : EventCredit cfg r winner trigger credited deleted inserted)
    (mem : s ∈ deleted) : s.isStanding = true := by
  rcases h.exchanged with ⟨rfl, -⟩ | ⟨-, datum, rfl, -⟩
  · cases mem
  · exact (of_mem_delete_eventExchange mem).2

theorem nodup_deleted (h : EventCredit cfg r winner trigger credited deleted inserted)
    (ids : (r.eventReports.map EventReport.id).Nodup) : (deleted.map EventReport.id).Nodup := by
  rcases h.exchanged with ⟨rfl, -⟩ | ⟨-, datum, rfl, -⟩
  · exact List.nodup_nil
  · exact nodup_delete_eventExchange (ids.sublist (List.filter_sublist.map _))

/-- The reports of a flexible source are reconciled, if they are exchanged at all. -/
theorem reconciled (h : EventCredit cfg r winner trigger credited deleted inserted)
    {spec : ReportSpec} (rules : winner.reportSpec = some spec) :
    inserted = [] ∨ ∃ datum, reconcile spec.maxReports
        ((spec.record (trigger.attributedWith datum)).desired winner
          (reportContext cfg winner spec trigger)) (r.eventReportsOf winner.id)
        (reportContext cfg winner spec trigger).now = (inserted, deleted) := by
  rcases h.exchanged with ⟨-, rfl⟩ | ⟨-, datum, rfl, rfl⟩
  · exact .inl rfl
  · rcases eventExchange_cases cfg winner trigger datum
      (r.eventReports.filter (·.sourceId == winner.id)) with none | ⟨spec', same, eq⟩ |
        ⟨_, _, plain, -⟩
    · rw [none]
      exact .inl rfl
    · cases rules.symm.trans same
      exact .inr ⟨datum, eq⟩
    · cases rules.symm.trans plain

end EventCredit

theorem nodup_keys_desired (spec : ReportSpec) (source : Source) (ctx : ReportContext) :
    ((spec.desired source ctx).map EventReport.key).Nodup :=
  spec.map_key_desired source ctx ▸ spec.nodup_map_key_credits source.eventTime

namespace EventCredit

section

variable (keyed : r.WellKeyed) (backed : r.Backed delay) (stored : trigger ∈ r.triggers)
  (pending : trigger.status = .pending) (winner_mem : winner ∈ r.sources)
  (h : EventCredit cfg r winner trigger credited deleted inserted)

include keyed backed stored pending winner_mem h

/-- What is inserted has distinct ids: no two triggers of a history share theirs. -/
theorem nodup_inserted : (inserted.map EventReport.id).Nodup := by
  cases rules : winner.reportSpec with
  | none =>
    cases h with
    | nothing _ _ _ inserts =>
      rw [inserts]
      exact List.nodup_nil
    | flexible _ kind => cases kind.symm.trans rules
    | plain _ _ _ _ _ _ inserts _ =>
      rw [inserts]
      exact List.nodup_singleton _
  | some spec =>
    rcases h.reconciled rules with rfl | ⟨datum, eq⟩
    · exact List.nodup_nil
    · have desired := insert_sublist_desired eq
      exact FlexibleState.nodup_ids_of_timely
        (nodup_history_record backed keyed.triggers stored pending winner_mem rules datum)
        (fun _ mem => FlexibleState.isTimely_of_mem_desired rfl (desired.subset mem))
        ((nodup_keys_desired _ winner _).sublist (desired.map _))

omit keyed pending in
/-- What is inserted credits the trigger, or a flexible source for what was attributed to it
before. -/
theorem credits (mem : report ∈ inserted) :
    ∃ t ∈ r.triggers, ∃ datum, selectDatum winner t = some datum ∧
      report.credited = t.attributedWith datum ∧
        (t = trigger ∨ winner.reportSpec.isSome = true) := by
  rcases h.inserted_cases mem with ⟨before, datum, rules, selected, -, desired⟩ |
    ⟨datum, time, selected, -, rfl⟩
  · obtain ⟨-, joined, -⟩ := ReportSpec.of_mem_desired desired
    rcases List.mem_append.1 joined with old | new
    · obtain ⟨t, backs⟩ := (backed.histories winner winner_mem before rules).2 _ old
      obtain ⟨datum, selected, eq⟩ := backs.selected
      exact ⟨t, backs.trigger_mem, datum, selected, eq, .inr (by rw [rules]; rfl)⟩
    · exact ⟨trigger, stored, datum, selected, List.mem_singleton.1 new, .inl rfl⟩
  · exact ⟨trigger, stored, datum, selected, rfl, .inl rfl⟩

/-- A report that is left and has the id of one that is inserted is a marked one of a flexible
source: the report of a trigger that is pending would not be there, and a standing one would be
about another bucket. -/
theorem marked_of_id_eq (labelled : r.Labelled) (mem : report ∈ inserted)
    (left : s ∈ remainingReports deleted r.eventReports) (same : s.id = report.id) :
    s.status = .markedToDelete ∧ s ∈ r.eventReportsOf winner.id ∧
      winner.reportSpec.isSome = true := by
  obtain ⟨t, ht, datum, selected, eq, origin⟩ :=
    h.credits backed stored winner_mem mem
  have before : s ∈ r.eventReports := List.mem_of_mem_filter left
  obtain ⟨source, t', backs⟩ := backed.events s before
  obtain ⟨datum', selected', eq'⟩ := backs.selected
  have mine : report.sourceId = winner.id := (h.pending mem).1
  -- ids without colons tell that both are for the same source, trigger and bucket
  obtain ⟨sources, triggers, buckets⟩ : s.sourceId = report.sourceId ∧
      s.credited.triggerId = report.credited.triggerId ∧
      s.bucket.map (·.first) = report.bucket.map (·.first) := by
    apply EventReport.ownId_inj
    · exact backs.sourceId ▸ labelled.sources _ (List.mem_map_of_mem backs.source_mem)
    · exact mine ▸ labelled.sources _ (List.mem_map_of_mem winner_mem)
    · exact eq' ▸ labelled.triggers _ (List.mem_map_of_mem backs.trigger_mem)
    · exact eq ▸ labelled.triggers _ (List.mem_map_of_mem ht)
    · rw [← labelled.events s before, same, h.id_eq mem]
  obtain rfl : source = winner := List.inj_on_of_nodup_map keyed.sources backs.source_mem
    winner_mem (backs.sourceId.symm.trans (sources.trans mine))
  obtain rfl : t' = t := by
    rw [eq, eq'] at triggers
    exact List.inj_on_of_nodup_map keyed.triggers backs.trigger_mem ht triggers
  cases Option.some.inj (selected'.symm.trans selected)
  have flexible : source.reportSpec.isSome = true := by
    refine origin.resolve_left fun current => ?_
    have attributed := backs.attributed
    rw [current, pending] at attributed
    cases attributed
  have own : s ∈ r.eventReportsOf source.id :=
    List.mem_filter.2 ⟨before, beq_iff_eq.2 backs.sourceId⟩
  refine ⟨?_, own, flexible⟩
  by_contra unmarked
  obtain ⟨spec, rules⟩ := Option.isSome_iff_exists.1 flexible
  rcases h.reconciled rules with rfl | ⟨_, exchange⟩
  · cases mem
  · have remains : s ∈ remainingReports deleted (r.eventReportsOf source.id) :=
      List.mem_filter.2 ⟨own, (List.mem_filter.1 left).2⟩
    refine key_ne_of_mem_insert (nodup_keys_desired _ source _) exchange mem remains
      (EventReport.isStanding_iff.2 unmarked) (Prod.ext ?_ buckets)
    exact congrArg AttributedTrigger.data (eq'.trans eq.symm)

omit backed stored pending winner_mem in
/-- A marked report is not deleted. -/
theorem left_of_marked (before : s ∈ r.eventReports) (marked : s.status = .markedToDelete) :
    s ∈ remainingReports deleted r.eventReports := by
  refine List.mem_filter.2 ⟨before, decide_eq_true fun gone => ?_⟩
  obtain ⟨d, hd, eq⟩ := List.mem_map.1 gone
  obtain rfl : d = s := List.inj_on_of_nodup_map keyed.eventReports (h.own hd).1 before eq
  exact EventReport.isStanding_iff.1 (h.deleted_standing hd) marked

/-- The exchange fails exactly when a report is wanted of which there is a marked one. -/
theorem exists_exchange_iff (labelled : r.Labelled) :
    (∃ after, exchangeReports? inserted deleted r.eventReports = some after) ↔
      ∀ report ∈ inserted, ∀ s ∈ r.eventReports, s.id = report.id → s.status ≠ .markedToDelete := by
  have ids := keyed.eventReports
  have there : ∀ s ∈ deleted, s.id ∈ r.eventReports.map EventReport.id :=
    fun s hs => List.mem_map_of_mem (h.own hs).1
  simp only [exchangeReports?_eq_some_iff ids (h.nodup_deleted ids) there]
  constructor
  · rintro ⟨_, rfl, distinct⟩ report mem s before same marked
    have left := h.left_of_marked keyed before marked
    rw [List.map_append, List.nodup_append] at distinct
    exact distinct.2.2 _ (List.mem_map_of_mem left) _ (List.mem_map_of_mem mem) same
  · intro unmarked
    refine ⟨_, rfl, ?_⟩
    rw [List.map_append, List.nodup_append]
    refine ⟨ids.sublist (List.filter_sublist.map _),
      h.nodup_inserted keyed backed stored pending winner_mem, fun id left id' new same => ?_⟩
    obtain ⟨s, hs, rfl⟩ := List.mem_map.1 left
    obtain ⟨report, mem, rfl⟩ := List.mem_map.1 new
    exact unmarked report mem s (List.mem_of_mem_filter hs) same
      (h.marked_of_id_eq keyed backed stored pending winner_mem labelled mem hs same).1

end

end EventCredit

/-! ## Triggers that fail -/

section

variable (keyed : r.WellKeyed) (backed : r.Backed delay) (labelled : r.Labelled)
  (stored : trigger ∈ r.triggers) (pending : trigger.status = .pending)
  (winner_mem : source ∈ r.sources)

include keyed backed labelled stored pending winner_mem

/-- An aggregate report is always new: it is the only one of its trigger. -/
theorem exists_onAggregateReports (draws : Draws) :
    ∃ l, ((aggregateWrites cfg r source trigger draws).1.getD []).foldlM
      (fun l w => w.onAggregateReports l) r.aggregateReports = some l := by
  rcases found : (aggregateWrites cfg r source trigger draws).1 with _ | writes
  · exact ⟨_, rfl⟩
  · obtain ⟨report, dedupKey, decided, -, rfl⟩ := aggregateWrites_eq_some found
    obtain ⟨-, -, delay', rfl⟩ := decideAggregateReport_eq_insert decided
    rw [Option.getD_some, foldlM_planAggregate]
    refine ⟨_, if_neg fun taken => ?_⟩
    obtain ⟨a, ha, same⟩ := List.any_eq_true.1 taken
    obtain ⟨source', t, backs, sourceId, triggerId⟩ := backed.aggregates a ha
    have eq : a.id = source.id ++ ":" ++ trigger.id ++ ":aggregate" := beq_iff_eq.1 same
    rw [labelled.aggregates a ha, sourceId, triggerId] at eq
    obtain ⟨-, own⟩ := aggregateId_inj
      (labelled.sources _ (List.mem_map_of_mem backs.source_mem))
      (labelled.sources _ (List.mem_map_of_mem winner_mem)) eq
    exact Records.id_ne_of_pending keyed.triggers stored pending backs.trigger_mem
      backs.attributed own

/-- An attribution can be carried out unless its event path wants a report of which there is a
marked one. -/
theorem exists_performAll_iff_unmarked (draws : Draws)
    (won : selectSource (r.sources.filter (·.matchesTrigger trigger)) trigger =
      some (source, losers)) :
    (∃ r', performAll ((eventWrites cfg r source trigger).getD [] ++
      ((aggregateWrites cfg r source trigger draws).1.getD [] ++
        planAttribution source losers trigger)) r = .ok () r') ↔
      ∀ report, .insertEventReport report ∈ (eventWrites cfg r source trigger).getD [] →
        ∀ s ∈ r.eventReports, s.id = report.id → s.status ≠ .markedToDelete := by
  rw [exists_performAll_attribution_iff keyed stored won, and_iff_left
    (exists_onAggregateReports keyed backed labelled stored pending winner_mem draws)]
  rcases found : eventWrites cfg r source trigger with _ | writes
  · simp
  · obtain ⟨datum, selected, -, planned⟩ := eventWrites_eq_some found
    have event : EventCredit cfg r source trigger (creditedSource cfg r source trigger draws) _ _ :=
      eventCredit_of_planEvent selected found planned
    simp only [Option.getD_some, foldlM_planEvent planned, insert_mem_planEvent_iff planned]
    exact event.exists_exchange_iff keyed backed stored pending winner_mem labelled

end

/-- Only the event path inserts event reports. -/
theorem insert_mem_attribution_iff :
    .insertEventReport report ∈ (eventWrites cfg r source trigger).getD [] ++
      ((aggregateWrites cfg r source trigger draws).1.getD [] ++
        planAttribution source losers trigger) ↔
      .insertEventReport report ∈ (eventWrites cfg r source trigger).getD [] := by
  refine ⟨fun mem => ?_, List.mem_append_left _⟩
  rcases List.mem_append.1 mem with event | rest
  · exact event
  · rcases List.mem_append.1 rest with aggregate | closing
    · rcases of_mem_aggregateWrites aggregate with ⟨_, eq⟩ | ⟨_, eq⟩ | ⟨_, eq⟩ <;> cases eq
    · rcases of_mem_planAttribution closing with eq | eq | eq <;> cases eq

/-- A trigger that inserts event reports is pending, and does so along the event path of the source
that wins it. -/
theorem of_insert_mem_triggerPlan
    (mem : .insertEventReport report ∈ (triggerPlan cfg r trigger draws).writes) :
    trigger.status = .pending ∧ ∃ source losers,
      selectSource (r.sources.filter (·.matchesTrigger trigger)) trigger = some (source, losers) ∧
      clausesPass source.matchingData trigger.filters trigger.notFilters = true ∧
      isBlocked cfg r source trigger = false ∧ source.mode = .truthfully ∧
      .insertEventReport report ∈ (eventWrites cfg r source trigger).getD [] := by
  rcases triggerPlan_cases cfg r trigger draws with ⟨-, -, writes⟩ | ⟨-, -, writes⟩ |
    ⟨source, losers, pending, won, pass, free, truthful, -, -, writes⟩
  · rw [writes] at mem
    cases mem
  · rw [writes] at mem
    cases List.mem_singleton.1 mem
  · rw [writes, insert_mem_attribution_iff] at mem
    exact ⟨pending, source, losers, won, pass, free, truthful, mem⟩

/-- Which reports a trigger inserts does not depend on what is drawn. -/
theorem insert_mem_triggerPlan {draws' : Draws}
    (mem : .insertEventReport report ∈ (triggerPlan cfg r trigger draws).writes) :
    .insertEventReport report ∈ (triggerPlan cfg r trigger draws').writes := by
  obtain ⟨pending, source, losers, won, pass, free, truthful, event⟩ :=
    of_insert_mem_triggerPlan mem
  have unblocked : ¬ (isBlocked cfg r source trigger = true ∨ source.mode ≠ .truthfully) := by
    simp [free, truthful]
  unfold triggerPlan pendingPlan
  rw [if_neg (not_ne_iff.2 pending), won]
  dsimp only
  rw [if_pos pass, if_neg unblocked]
  exact List.mem_append_left _ event

theorem exists_performAll_triggerPlan_iff (keyed : r.WellKeyed) (backed : r.Backed delay)
    (labelled : r.Labelled) (stored : trigger ∈ r.triggers) :
    (∃ r', performAll (triggerPlan cfg r trigger draws).writes r = .ok () r') ↔
      ∀ report, .insertEventReport report ∈ (triggerPlan cfg r trigger draws).writes →
        ∀ s ∈ r.eventReports, s.id = report.id → s.status ≠ .markedToDelete := by
  rcases triggerPlan_cases cfg r trigger draws with ⟨-, -, writes⟩ | ⟨-, -, writes⟩ |
    ⟨source, losers, pending, won, -, -, -, -, -, writes⟩
  · rw [writes]
    exact iff_of_true ⟨r, rfl⟩ fun _ mem => absurd mem List.not_mem_nil
  · rw [writes]
    refine iff_of_true (exists_performAll_iff.2 ⟨⟨_, rfl⟩, ?_, ⟨_, rfl⟩, ⟨_, rfl⟩, ⟨_, rfl⟩⟩)
      fun _ mem => ?_
    · obtain ⟨l, settled⟩ := exists_onTriggers_setTriggerStatus keyed.triggers stored .ignored
      exact ⟨l, by rw [List.foldlM_cons, settled]; rfl⟩
    · cases List.mem_singleton.1 mem
  · simp only [writes, insert_mem_attribution_iff]
    exact exists_performAll_iff_unmarked keyed backed labelled stored pending
      (of_selectSource won).1 draws won

/-- Only reports of flexible sources are wanted again. -/
theorem exists_flexible_of_marked (keyed : r.WellKeyed) (backed : r.Backed delay)
    (labelled : r.Labelled) (stored : trigger ∈ r.triggers)
    (mem : .insertEventReport report ∈ (triggerPlan cfg r trigger draws).writes)
    (before : s ∈ r.eventReports) (same : s.id = report.id) (marked : s.status = .markedToDelete) :
    trigger.status = .pending ∧ ∃ source ∈ r.sources, source.reportSpec.isSome = true ∧
      s ∈ r.eventReportsOf source.id := by
  obtain ⟨pending, source, losers, won, -, -, -, event⟩ := of_insert_mem_triggerPlan mem
  have winner_mem := (of_selectSource won).1
  rcases found : eventWrites cfg r source trigger with _ | writes
  · rw [found] at event
    cases event
  · rw [found, Option.getD_some] at event
    obtain ⟨datum, selected, -, planned⟩ := eventWrites_eq_some found
    have credit : EventCredit cfg r source trigger
        (creditedSource cfg r source trigger draws) _ _ :=
      eventCredit_of_planEvent selected found planned
    have inserted := (insert_mem_planEvent_iff planned).1 event
    obtain ⟨-, own, flexible⟩ := credit.marked_of_id_eq keyed backed stored pending winner_mem
      labelled inserted (credit.left_of_marked keyed before marked) same
    exact ⟨pending, source, winner_mem, flexible, own⟩

theorem process_ok_iff_performAll {id : String} (found : r.trigger? id = some trigger)
    (draws : Draws) :
    (∃ outcome s', process Store.backend cfg id ⟨⟨r, none⟩, draws⟩ = .ok outcome s') ↔
      ∃ r', performAll (triggerPlan cfg r trigger draws).writes r = .ok () r' := by
  constructor
  · rintro ⟨outcome, s', ok⟩
    obtain ⟨trigger', r', found', performed, -⟩ := process_eq_ok rfl ok
    cases found.symm.trans found'
    exact ⟨r', performed⟩
  · rintro ⟨r', performed⟩
    exact ⟨_, _, process_of_performAll rfl found performed⟩

/-- Sources and triggers have ids without colons, and histories begin empty. -/
abbrev RegistersColonless : Records → JobEvent → Prop :=
  RegistersOnce (fun source => Colonless source.id ∧ Unrecorded source) (Colonless ·.id)

/-- Processing a stored trigger fails exactly when it wants to insert a report that is marked to be
deleted, which can only be one of a flexible source. A failure leaves the store as it was and the
trigger pending, and it is for good: the trigger fails again whatever is drawn. -/
theorem process_ok_iff {id : String} (h : Life cfg (· = {}) RegistersColonless r)
    (found : r.trigger? id = some trigger) (draws : Draws) :
    ((∃ outcome s', process Store.backend cfg id ⟨⟨r, none⟩, draws⟩ = .ok outcome s') ↔
      ∀ report, .insertEventReport report ∈ (triggerPlan cfg r trigger draws).writes →
        ∀ stored ∈ r.eventReports, stored.id = report.id → stored.status ≠ .markedToDelete) ∧
      ((∀ source ∈ r.sources, source.reportSpec.isSome = true →
          ∀ report ∈ r.eventReportsOf source.id, report.status ≠ .markedToDelete) →
        ∃ outcome s', process Store.backend cfg id ⟨⟨r, none⟩, draws⟩ = .ok outcome s') ∧
      ∀ e s', process Store.backend cfg id ⟨⟨r, none⟩, draws⟩ = .error e s' →
        s'.store = ⟨r, none⟩ ∧ trigger.status = .pending ∧
          ∀ again, ∃ e' draws', process Store.backend cfg id ⟨⟨r, none⟩, again⟩ =
            .error e' ⟨⟨r, none⟩, draws'⟩ := by
  obtain ⟨keyed, backed⟩ := Life.backed (fun _ registers => registers.2) h
  have labelled := Life.labelled (fun _ registers => registers.1) (fun _ registers => registers) h
  have stored : trigger ∈ r.triggers := List.mem_of_find?_eq_some found
  have wanted (draws : Draws) :
      (∃ outcome s', process Store.backend cfg id ⟨⟨r, none⟩, draws⟩ = .ok outcome s') ↔
        ∀ report, .insertEventReport report ∈ (triggerPlan cfg r trigger draws).writes →
          ∀ stored ∈ r.eventReports, stored.id = report.id → stored.status ≠ .markedToDelete :=
    (process_ok_iff_performAll found draws).trans
      (exists_performAll_triggerPlan_iff keyed backed labelled stored)
  have fails {draws : Draws}
      (stuck : ¬ ∃ outcome s', process Store.backend cfg id ⟨⟨r, none⟩, draws⟩ = .ok outcome s') :
      ∃ e draws', process Store.backend cfg id ⟨⟨r, none⟩, draws⟩ =
        .error e ⟨⟨r, none⟩, draws'⟩ := by
    rcases process_cases cfg id (s := ⟨⟨r, none⟩, draws⟩) rfl with failed | ⟨_, _, -, -, ok⟩
    · exact failed
    · exact absurd ⟨_, _, ok⟩ stuck
  refine ⟨wanted draws, fun unmarked => ?_, fun e s' failed => ?_⟩
  · refine (wanted draws).2 fun report mem s before same marked => ?_
    obtain ⟨-, source, hs, flexible, own⟩ :=
      exists_flexible_of_marked keyed backed labelled stored mem before same marked
    exact unmarked source hs flexible s own marked
  · have stuck : ¬ ∃ outcome s', process Store.backend cfg id ⟨⟨r, none⟩, draws⟩ =
        .ok outcome s' := by
      rw [failed]
      rintro ⟨_, _, ok⟩
      cases ok
    obtain ⟨e', draws', failed'⟩ := fails stuck
    cases failed.symm.trans failed'
    rw [wanted draws] at stuck
    push Not at stuck
    obtain ⟨report, mem, s, before, same, marked⟩ := stuck
    refine ⟨rfl, (exists_flexible_of_marked keyed backed labelled stored mem before same marked).1,
      fun again => fails fun ok => ?_⟩
    exact (wanted again).1 ok report (insert_mem_triggerPlan mem) s before same marked

/-- A store with a marked report of a flexible source, and a trigger that ranks below the one that
the report credits. -/
def sampleMarked : JobState Store :=
  [.addSource sampleFlexible, .addTrigger (sampleRanked "trigger1" 1 5), .process "trigger1",
    .setReportStatus "source1:trigger1:1" .markedToDelete,
    .addTrigger (sampleRanked "trigger2" 2 1)].foldl (step sampleConfig) ⟨{}, []⟩

theorem reachable_sampleMarked :
    Reachable sampleConfig (· = {}) RegistersColonless sampleMarked := by
  simp only [sampleMarked, List.foldl_cons, List.foldl_nil]
  refine .step (.step (.step (.step (.step (.start rfl) ?_) ?_) ?_) ?_) ?_
  · refine ⟨List.not_mem_nil, by unfold Colonless; decide, fun spec rules => ?_⟩
    cases rules
    rfl
  · exact ⟨List.not_mem_nil, by unfold Colonless; decide⟩
  · trivial
  · trivial
  · refine ⟨?_, by unfold Colonless; decide⟩
    have ids : (step sampleConfig (step sampleConfig (step sampleConfig (step sampleConfig ⟨{}, []⟩
        (.addSource sampleFlexible)) (.addTrigger (sampleRanked "trigger1" 1 5)))
          (.process "trigger1")) (.setReportStatus "source1:trigger1:1"
            .markedToDelete)).store.records.triggers.map Trigger.id = ["trigger1"] := by
      cbv
    rw [ids]
    decide

theorem sampleMarked_closed : sampleMarked.store.snapshot = none := by
  cbv

theorem sampleMarked_refuses :
    ∃ s', process Store.backend sampleConfig "trigger2" sampleMarked =
      .error (.eventReportExists "source1:trigger1:1") s' := by
  have refused : (match process Store.backend sampleConfig "trigger2" sampleMarked with
      | .error e _ => some e
      | .ok _ _ => none) = some (.eventReportExists "source1:trigger1:1") := by
    cbv
  split at refused
  · next eq =>
    cases refused
    exact ⟨_, eq⟩
  · cases refused

theorem sampleMarked_trigger? :
    sampleMarked.store.records.trigger? "trigger2" = some (sampleRanked "trigger2" 2 1) := by
  cbv

/-- The lower trigger is never dealt with. -/
theorem process_ok_iff_sample :
    (sampleRanked "trigger2" 2 1).status = .pending ∧
      ∀ draws, ∃ e draws', process Store.backend sampleConfig "trigger2"
          ⟨⟨sampleMarked.store.records, none⟩, draws⟩ =
        .error e ⟨⟨sampleMarked.store.records, none⟩, draws'⟩ := by
  obtain ⟨s', refused⟩ := sampleMarked_refuses
  have idle : sampleMarked = ⟨⟨sampleMarked.store.records, none⟩, sampleMarked.draws⟩ := by
    rw [← sampleMarked_closed]
  rw [idle] at refused
  obtain ⟨-, -, failure⟩ :=
    process_ok_iff reachable_sampleMarked.life sampleMarked_trigger? sampleMarked.draws
  exact (failure _ s' refused).2

/-- No trigger should fail, but the report of the first trigger is wanted again and refused. -/
theorem process_refused :
    Reachable sampleConfig (· = {}) RegistersColonless sampleMarked ∧
      sampleMarked.store.snapshot = none ∧
      sampleMarked.store.records.trigger? "trigger2" = some (sampleRanked "trigger2" 2 1) ∧
        ∃ s', process Store.backend sampleConfig "trigger2" sampleMarked =
          .error (.eventReportExists "source1:trigger1:1") s' :=
  ⟨reachable_sampleMarked, sampleMarked_closed, sampleMarked_trigger?, sampleMarked_refuses⟩

end Job

end AttributionReporting
