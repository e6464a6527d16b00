import AttributionReporting.Proofs.Aggregate.Decision
import AttributionReporting.Proofs.Job.EventPath
import AttributionReporting.Proofs.Job.Registered
import AttributionReporting.Proofs.Store.Credit
import AttributionReporting.Proofs.Store.Reachable
import Mathlib.Data.List.Nodup

/-!
# Attributions

An attribution changes the records as its `Award` says: the source that won the trigger is credited,
the other sources that match are ignored, reports of the winner are deleted and inserted, and the
attribution is recorded. The event path and the aggregate path each credit the winner with nothing
or in one of a few ways (`EventCredit`, `AggregateCredit`), and whenever the plan for an attribution
is carried out, its award has been earned along them (`earned_of_attribution`).
-/

namespace AttributionReporting

/-- The records with another status of a trigger. -/
def Records.setTriggerStatus (r : Records) (id : String) (status : TriggerStatus) : Records :=
  { r with triggers := r.triggers.map fun t => if t.id = id then { t with status } else t }

theorem Records.map_id_setTriggerStatus (r : Records) (id : String) (status : TriggerStatus) :
    (r.setTriggerStatus id status).triggers.map Trigger.id = r.triggers.map Trigger.id := by
  show (r.triggers.map _).map Trigger.id = _
  rw [List.map_map]
  apply List.map_congr_left
  intro t _
  rw [Function.comp_apply]
  split_ifs <;> rfl

namespace Job

/-- What the attribution of a trigger comes to. -/
structure Award where
  /-- The source that won, as it was before. -/
  winner : Source
  /-- The source that won, as it is afterwards. -/
  credited : Source
  deleted : List EventReport
  inserted : List EventReport
  aggregate : Option AggregateReport

namespace Award

/-- The records after the attribution of a trigger. -/
def apply (a : Award) (trigger : Trigger) (r : Records) : Records where
  sources := r.sources.map fun s =>
    if s.id = a.winner.id then a.credited
    else if s.matchesTrigger trigger then { s with status := .ignored }
    else s
  triggers := (r.setTriggerStatus trigger.id .attributed).triggers
  eventReports := remainingReports a.deleted r.eventReports ++ a.inserted
  aggregateReports := r.aggregateReports ++ a.aggregate.toList
  attributions := r.attributions ++ [Attribution.of a.winner trigger]

/-- The winner is credited and nobody else is, and there is something to be credited for. -/
structure Valid (a : Award) (trigger : Trigger) (r : Records) : Prop where
  won : ∃ losers, selectSource (r.sources.filter (·.matchesTrigger trigger)) trigger =
    some (a.winner, losers)
  /-- The credit is in the contributions, the dedup keys and the history. -/
  registered : a.credited.asRegistered = a.winner.asRegistered
  status : a.credited.status = a.winner.status
  deleted : ∀ report ∈ a.deleted, report ∈ r.eventReports ∧ report.sourceId = a.winner.id
  inserted : ∀ report ∈ a.inserted, report.sourceId = a.winner.id
  aggregate : ∀ report ∈ a.aggregate, report.sourceId = a.winner.id
  led : a.inserted ≠ [] ∨ a.aggregate ≠ none ∨
    ∃ spec t, a.winner.reportSpec = some spec ∧ a.credited.reportSpec = some (spec.record t)

end Award

/-- How the event path credits the source that won a trigger. -/
inductive EventCredit (cfg : JobConfig) (r : Records) (winner : Source) (trigger : Trigger)
    (credited : Source) (deleted inserted : List EventReport) : Prop
  | nothing (keys : credited.eventDedupKeys = winner.eventDedupKeys)
    (rules : credited.reportSpec = winner.reportSpec) (deletes : deleted = [])
    (inserts : inserted = [])
  /-- The trigger joins the history of a flexible source. -/
  | flexible {datum : EventTriggerDatum} {spec : ReportSpec} {rules : TriggerSpec}
    (room : r.eventReportCount trigger.destination <
      cfg.limits.maxEventReportsPerDestination.toNat)
    (kind : winner.reportSpec = some spec)
    (joins : spec.rulesFor winner.eventTime (trigger.attributedWith datum) = .ok rules)
    (keys : credited.eventDedupKeys = winner.eventDedupKeys)
    (history : credited.reportSpec = some (spec.record (trigger.attributedWith datum)))
    (deletes : deleted = (eventExchange cfg winner trigger datum
      (r.eventReports.filter (·.sourceId == winner.id))).2)
    (inserts : inserted = (eventExchange cfg winner trigger datum
      (r.eventReports.filter (·.sourceId == winner.id))).1)
    (selected : selectDatum winner trigger = some datum)
  /-- A plain source gets a report. -/
  | plain {datum : EventTriggerDatum} {report : EventReport} {replaces : Option EventReport}
    (room : r.eventReportCount trigger.destination <
      cfg.limits.maxEventReportsPerDestination.toNat)
    (kind : winner.reportSpec = none)
    (decided : decideStandardReport winner trigger datum
      (r.eventReports.filter (·.sourceId == winner.id)) cfg.limits (cfg.rates.rateOf winner) =
        .insert report replaces)
    (keys : credited.eventDedupKeys = winner.eventDedupKeys ++ datum.dedupKey.toList)
    (rules : credited.reportSpec = none) (deletes : deleted = replaces.toList)
    (inserts : inserted = [report]) (selected : selectDatum winner trigger = some datum)

/-- How the aggregate path credits the source that won a trigger. -/
inductive AggregateCredit (cfg : JobConfig) (r : Records) (winner : Source) (trigger : Trigger)
    (credited : Source) (aggregate : Option AggregateReport) : Prop
  | nothing (used : credited.contributions = winner.contributions)
    (keys : credited.aggregateDedupKeys = winner.aggregateDedupKeys) (inserts : aggregate = none)
  | report {delay : Int} (free : aggregateObstacle? winner trigger cfg.limits = none)
    (room : r.aggregateReportCount trigger.destination <
      cfg.limits.maxAggregateReportsPerDestination.toNat)
    (used : credited.contributions =
      addContributions winner.contributions (totalValue (contributions winner trigger)))
    (keys : credited.aggregateDedupKeys =
      winner.aggregateDedupKeys ++ (matchingDedupKey winner trigger).toList)
    (inserts : aggregate = some (aggregateReport winner trigger delay))

/-- An award that the job makes for a trigger. -/
structure Award.Earned (cfg : JobConfig) (trigger : Trigger) (r : Records) (a : Award) : Prop
    extends a.Valid trigger r where
  admitted : isBlocked cfg r a.winner trigger = false
  truthful : a.winner.mode = .truthfully
  eventCredit : EventCredit cfg r a.winner trigger a.credited a.deleted a.inserted
  aggregateCredit : AggregateCredit cfg r a.winner trigger a.credited a.aggregate

variable {cfg : JobConfig} {r r' : Records} {source credited : Source} {losers : List Source}
  {trigger : Trigger} {draws : Draws}

/-- What the event path deletes and inserts, if anything, is an exchange of reports, and there was
room for one more. -/
theorem EventCredit.exchanged {deleted inserted : List EventReport}
    (h : EventCredit cfg r source trigger credited deleted inserted) :
    (deleted = [] ∧ inserted = []) ∨
      r.eventReportCount trigger.destination < cfg.limits.maxEventReportsPerDestination.toNat ∧
        ∃ datum,
          deleted = (eventExchange cfg source trigger datum
            (r.eventReports.filter (·.sourceId == source.id))).2 ∧
          inserted = (eventExchange cfg source trigger datum
            (r.eventReports.filter (·.sourceId == source.id))).1 := by
  cases h with
  | nothing _ _ deletes inserts => exact .inl ⟨deletes, inserts⟩
  | flexible room _ _ _ _ deletes inserts _ => exact .inr ⟨room, _, deletes, inserts⟩
  | @plain datum report replaces room kind decided _ _ deletes inserts _ =>
    refine .inr ⟨room, datum, ?_⟩
    simp only [eventExchange, kind, decided, deletes, inserts, and_self]

/-! ## The writes of an attribution -/

/-- Until a trigger is known to lead to a report, only the source that won it is changed. -/
theorem credits_of_mem {w : Write} (h : w ∈ (eventWrites cfg r source trigger).getD [] ++
    (aggregateWrites cfg r source trigger draws).1.getD []) : w.Credits source.id := by
  rcases List.mem_append.1 h with event | aggregate
  · rcases of_mem_eventWrites event with ⟨_, rfl⟩ | ⟨_, rfl⟩ | ⟨_, rfl⟩ | ⟨_, rfl⟩
    · rfl
    · trivial
    · trivial
    · rfl
  · rcases of_mem_aggregateWrites aggregate with ⟨_, rfl⟩ | ⟨_, rfl⟩ | ⟨_, rfl⟩
    · rfl
    · rfl
    · trivial

theorem onAggregateReports_planAttribution {w : Write}
    (h : w ∈ planAttribution source losers trigger) : w.onAggregateReports = some := by
  rcases of_mem_planAttribution h with rfl | rfl | rfl <;> rfl

/-- In the end the losers are ignored. -/
theorem sources_of_planAttribution {l l' : List Source} (ids : (l.map Source.id).Nodup)
    (h : (planAttribution source losers trigger).foldlM (fun l w => w.onSources l) l = some l') :
    l' = l.map fun s =>
      if s.id ∈ losers.map Source.id then { s with status := .ignored } else s := by
  unfold planAttribution at h
  cases losers with
  | nil =>
    cases Option.some.inj h
    simp only [List.map_nil, List.not_mem_nil, if_false, List.map_id']
  | cons first rest =>
    rw [List.isEmpty_cons, if_neg Bool.false_ne_true, List.foldlM_append, List.foldlM_cons] at h
    obtain ⟨l₁, ignored, h⟩ := Option.bind_eq_some_iff.1 h
    obtain ⟨l₂, set, same⟩ := Option.bind_eq_some_iff.1 ignored
    cases Option.some.inj same
    cases Option.some.inj h
    exact Write.onSources_setSourceStatus ids set

/-- In the end the trigger is attributed. -/
theorem foldlM_onTriggers_planAttribution (l : List Trigger) :
    (planAttribution source losers trigger).foldlM (fun l w => w.onTriggers l) l =
      (Write.setTriggerStatus [trigger.id] .attributed).onTriggers l := by
  unfold planAttribution
  cases losers <;> exact Option.bind_fun_some _

theorem attributions_of_planAttribution (l : List Attribution) :
    (planAttribution source losers trigger).foldlM (fun l w => w.onAttributions l) l =
      some (l ++ [Attribution.of source trigger]) := by
  unfold planAttribution
  cases losers <;> rfl

theorem foldlM_planAggregate (report : AggregateReport) (dedupKey : Option UInt64)
    (l : List AggregateReport) :
    (planAggregate source report dedupKey).foldlM (fun l w => w.onAggregateReports l) l =
      (Write.insertAggregateReport report).onAggregateReports l := by
  unfold planAggregate
  cases dedupKey <;> exact Option.bind_fun_some _

theorem aggregateReports_of_planAggregate {report : AggregateReport} {dedupKey : Option UInt64}
    {l l' : List AggregateReport}
    (h : (planAggregate source report dedupKey).foldlM (fun l w => w.onAggregateReports l) l =
      some l') : l' = l ++ [report] := by
  rw [foldlM_planAggregate] at h
  simp only [Write.onAggregateReports] at h
  split_ifs at h
  exact (Option.some.inj h).symm

/-- The losers are the other sources that match. -/
theorem mem_losers_iff (ids : (r.sources.map Source.id).Nodup)
    (won : selectSource (r.sources.filter (·.matchesTrigger trigger)) trigger =
      some (source, losers)) {s : Source} (hs : s ∈ r.sources) :
    s.id ∈ losers.map Source.id ↔ s.id ≠ source.id ∧ s.matchesTrigger trigger = true := by
  have perm := selectSource_perm won
  have stored {l : Source} (hl : l ∈ source :: losers) :
      l ∈ r.sources ∧ l.matchesTrigger trigger = true :=
    List.mem_filter.1 (perm.subset hl)
  have distinct : ((source :: losers).map Source.id).Nodup :=
    (perm.map Source.id).nodup_iff.2 (ids.sublist (List.filter_sublist.map Source.id))
  constructor
  · intro mem
    obtain ⟨l, hl, eq⟩ := List.mem_map.1 mem
    obtain ⟨hl', matching⟩ := stored (List.mem_cons_of_mem source hl)
    obtain rfl : l = s := List.inj_on_of_nodup_map ids hl' hs eq
    refine ⟨fun same => ?_, matching⟩
    rw [List.map_cons, ← same] at distinct
    exact (List.nodup_cons.1 distinct).1 mem
  · rintro ⟨ne, matching⟩
    rcases List.mem_cons.1 (perm.mem_iff.2 (List.mem_filter.2 ⟨hs, matching⟩)) with rfl | mem
    · exact absurd rfl ne
    · exact List.mem_map_of_mem mem

/-! ## An attribution -/

/-- The source that wins a trigger, as it is afterwards. -/
def creditedSource (cfg : JobConfig) (r : Records) (source : Source) (trigger : Trigger)
    (draws : Draws) : Source :=
  Write.creditAll ((eventWrites cfg r source trigger).getD [] ++
    (aggregateWrites cfg r source trigger draws).1.getD []) source

/-- Of what the aggregate path does not credit, the winner keeps what the event path leaves. -/
theorem creditedSource_of_event {β : Type} (part : Source → β)
    (used : ∀ s contributions, part { s with contributions } = part s)
    (keys : ∀ s keys, part { s with aggregateDedupKeys := keys } = part s) :
    part (creditedSource cfg r source trigger draws) =
      part (Write.creditAll ((eventWrites cfg r source trigger).getD []) source) := by
  unfold creditedSource
  rw [Write.creditAll_append]
  apply Write.creditAll_same part
  intro w hw s
  rcases of_mem_aggregateWrites hw with ⟨_, rfl⟩ | ⟨_, rfl⟩ | ⟨_, rfl⟩
  · exact used s _
  · exact keys s _
  · rfl

theorem eventDedupKeys_creditedSource :
    (creditedSource cfg r source trigger draws).eventDedupKeys =
      (Write.creditAll ((eventWrites cfg r source trigger).getD []) source).eventDedupKeys :=
  creditedSource_of_event Source.eventDedupKeys (fun _ _ => rfl) (fun _ _ => rfl)

theorem reportSpec_creditedSource :
    (creditedSource cfg r source trigger draws).reportSpec =
      (Write.creditAll ((eventWrites cfg r source trigger).getD []) source).reportSpec :=
  creditedSource_of_event Source.reportSpec (fun _ _ => rfl) (fun _ _ => rfl)

/-- What the event path does not credit, it keeps. -/
theorem creditAll_eventWrites {β : Type} (part : Source → β)
    (keys : ∀ s keys, part { s with eventDedupKeys := keys } = part s)
    (rules : ∀ s spec, part { s with reportSpec := spec } = part s) (s : Source) :
    part (Write.creditAll ((eventWrites cfg r source trigger).getD []) s) = part s := by
  apply Write.creditAll_same part
  intro w hw s
  rcases of_mem_eventWrites hw with ⟨_, rfl⟩ | ⟨_, rfl⟩ | ⟨_, rfl⟩ | ⟨_, rfl⟩
  · exact rules s _
  · rfl
  · rfl
  · exact keys s _

/-- Deleting and inserting reports credits no source. -/
theorem creditAll_exchange (insert delete : List EventReport) (s : Source) :
    Write.creditAll (delete.map (fun r => Write.deleteEventReport r.id) ++
      insert.map Write.insertEventReport) s = s := by
  apply Write.creditAll_same id
  intro w hw s
  rcases List.mem_append.1 hw with deletes | inserts
  · obtain ⟨_, -, rfl⟩ := List.mem_map.1 deletes
    rfl
  · obtain ⟨_, -, rfl⟩ := List.mem_map.1 inserts
    rfl

/-- The source after the writes of the event path, when there are any. -/
theorem eventCredit_of_planEvent {writes : List Write} {datum : EventTriggerDatum}
    (selected : selectDatum source trigger = some datum)
    (found : eventWrites cfg r source trigger = some writes)
    (planned : planEvent cfg source trigger datum
      (r.eventReports.filter (·.sourceId == source.id)) = some writes) :
    EventCredit cfg r source trigger (creditedSource cfg r source trigger draws)
      (eventExchange cfg source trigger datum
        (r.eventReports.filter (·.sourceId == source.id))).2
      (eventExchange cfg source trigger datum
        (r.eventReports.filter (·.sourceId == source.id))).1 := by
  obtain ⟨-, -, room, -⟩ := eventWrites_eq_some found
  have keys : (creditedSource cfg r source trigger draws).eventDedupKeys =
      (Write.creditAll writes source).eventDedupKeys := by
    rw [eventDedupKeys_creditedSource, found, Option.getD_some]
  have rules : (creditedSource cfg r source trigger draws).reportSpec =
      (Write.creditAll writes source).reportSpec := by
    rw [reportSpec_creditedSource, found, Option.getD_some]
  rcases planEvent_cases planned with ⟨spec, next, kind, outcome, rfl⟩ |
    ⟨spec, next, insert, delete, kind, outcome, rfl⟩ | ⟨report, replaces, kind, decided, rfl⟩
  · obtain ⟨rfl, rules', joins, -⟩ := ReportSpec.credit_eq_historyOnly_iff.1 outcome
    exact .flexible room kind joins keys rules rfl rfl selected
  · obtain ⟨rfl, ⟨rules', joins⟩, -⟩ := ReportSpec.credit_eq_reports outcome
    rw [Write.creditAll_append, creditAll_exchange] at keys rules
    exact .flexible room kind joins keys rules rfl rfl selected
  · refine .plain room kind decided (keys.trans ?_) (rules.trans ?_) ?_ ?_ selected
    · cases replaces <;> cases datum.dedupKey <;> simp [Write.creditAll, Write.onSource]
    · cases replaces <;> cases datum.dedupKey <;> exact kind
    · simp only [eventExchange, kind, decided]
    · simp only [eventExchange, kind, decided]

/-- The source after the writes of the aggregate path, when there are any. -/
theorem aggregateCredit_of_insert {report : AggregateReport} {dedupKey : Option UInt64}
    (decided : (decideAggregateReport source trigger cfg.limits draws).1 = .insert report dedupKey)
    (room : r.aggregateReportCount trigger.destination <
      cfg.limits.maxAggregateReportsPerDestination.toNat)
    (found : (aggregateWrites cfg r source trigger draws).1 =
      some (planAggregate source report dedupKey)) :
    AggregateCredit cfg r source trigger (creditedSource cfg r source trigger draws)
      (some report) := by
  obtain ⟨free, rfl, delay, rfl⟩ := decideAggregateReport_eq_insert decided
  have eq : creditedSource cfg r source trigger draws =
      Write.creditAll (planAggregate source (aggregateReport source trigger delay)
          (matchingDedupKey source trigger))
        (Write.creditAll ((eventWrites cfg r source trigger).getD []) source) := by
    unfold creditedSource
    rw [Write.creditAll_append, found, Option.getD_some]
  have kept : (Write.creditAll ((eventWrites cfg r source trigger).getD [])
      source).aggregateDedupKeys = source.aggregateDedupKeys :=
    creditAll_eventWrites Source.aggregateDedupKeys (fun _ _ => rfl) (fun _ _ => rfl) source
  refine .report free room ?_ ?_ rfl
  · rw [eq]
    unfold planAggregate
    cases matchingDedupKey source trigger <;> rfl
  · rw [eq]
    unfold planAggregate
    cases matchingDedupKey source trigger with
    | none => exact kept.trans (List.append_nil _).symm
    | some key => rfl

/-- The event path inserts a report or records the trigger in the history of the source. -/
theorem led_of_planEvent {writes : List Write} {datum : EventTriggerDatum}
    {existing : List EventReport} (found : eventWrites cfg r source trigger = some writes)
    (planned : planEvent cfg source trigger datum existing = some writes) :
    (eventExchange cfg source trigger datum existing).1 ≠ [] ∨
      ∃ spec t, source.reportSpec = some spec ∧
        (creditedSource cfg r source trigger draws).reportSpec = some (spec.record t) := by
  have only_event : (creditedSource cfg r source trigger draws).reportSpec =
      (Write.creditAll writes source).reportSpec := by
    rw [reportSpec_creditedSource, found, Option.getD_some]
  rcases planEvent_cases planned with ⟨spec, next, rules, outcome, rfl⟩ |
    ⟨spec, next, insert, delete, rules, outcome, rfl⟩ | ⟨report, replaces, rules, decision, rfl⟩
  · right
    obtain ⟨rfl, -⟩ := ReportSpec.credit_eq_historyOnly_iff.1 outcome
    exact ⟨spec, _, rules, only_event⟩
  · right
    obtain ⟨rfl, -⟩ := ReportSpec.credit_eq_reports outcome
    refine ⟨spec, trigger.attributedWith datum, rules, only_event.trans ?_⟩
    rw [Write.creditAll_append]
    rfl
  · left
    simp only [eventExchange, rules, decision]
    exact List.cons_ne_nil _ _

theorem foldlM_onSources_attribution (ids : (r.sources.map Source.id).Nodup)
    (mem : source ∈ r.sources) :
    ((eventWrites cfg r source trigger).getD [] ++
      ((aggregateWrites cfg r source trigger draws).1.getD [] ++
        planAttribution source losers trigger)).foldlM (fun l w => w.onSources l) r.sources =
      (planAttribution source losers trigger).foldlM (fun l w => w.onSources l)
        (r.sources.map fun s =>
          if s.id = source.id then Write.creditAll ((eventWrites cfg r source trigger).getD [] ++
            (aggregateWrites cfg r source trigger draws).1.getD []) s else s) := by
  rw [← List.append_assoc, List.foldlM_append,
    Write.foldlM_onSources_of_credits (fun _ => credits_of_mem) ids (List.mem_map_of_mem mem)]
  rfl

theorem foldlM_onTriggers_attribution (l : List Trigger) :
    ((eventWrites cfg r source trigger).getD [] ++
      ((aggregateWrites cfg r source trigger draws).1.getD [] ++
        planAttribution source losers trigger)).foldlM (fun l w => w.onTriggers l) l =
      (Write.setTriggerStatus [trigger.id] .attributed).onTriggers l := by
  rw [← List.append_assoc, List.foldlM_append,
    foldlM_of_forall_some fun _ hw => (credits_of_mem hw).onTriggers]
  exact foldlM_onTriggers_planAttribution l

theorem foldlM_onAggregateReports_attribution (l : List AggregateReport) :
    ((eventWrites cfg r source trigger).getD [] ++
      ((aggregateWrites cfg r source trigger draws).1.getD [] ++
        planAttribution source losers trigger)).foldlM (fun l w => w.onAggregateReports l) l =
      ((aggregateWrites cfg r source trigger draws).1.getD []).foldlM
        (fun l w => w.onAggregateReports l) l := by
  rw [List.foldlM_append, foldlM_of_forall_some fun _ => onAggregateReports_eventWrites]
  change List.foldlM _ _ _ = _
  rw [List.foldlM_append]
  simp only [foldlM_of_forall_some fun _ => onAggregateReports_planAttribution]
  exact Option.bind_fun_some _

theorem foldlM_onAttributions_attribution (l : List Attribution) :
    ((eventWrites cfg r source trigger).getD [] ++
      ((aggregateWrites cfg r source trigger draws).1.getD [] ++
        planAttribution source losers trigger)).foldlM (fun l w => w.onAttributions l) l =
      some (l ++ [Attribution.of source trigger]) := by
  rw [← List.append_assoc, List.foldlM_append,
    foldlM_of_forall_some fun _ hw => (credits_of_mem hw).onAttributions]
  exact attributions_of_planAttribution l

section

variable (performed : performAll ((eventWrites cfg r source trigger).getD [] ++
  ((aggregateWrites cfg r source trigger draws).1.getD [] ++
    planAttribution source losers trigger)) r = .ok () r')

include performed

theorem sources_of_attribution (ids : (r.sources.map Source.id).Nodup)
    (won : selectSource (r.sources.filter (·.matchesTrigger trigger)) trigger =
      some (source, losers)) :
    r'.sources = r.sources.map fun s =>
      if s.id = source.id then creditedSource cfg r source trigger draws
      else if s.matchesTrigger trigger then { s with status := .ignored }
      else s := by
  obtain ⟨eq, -⟩ := performAll_eq_ok_iff.1 performed
  have mem : source ∈ r.sources := (of_selectSource won).1
  rw [foldlM_onSources_attribution ids mem] at eq
  have same := Write.map_id_credit (Write.creditAll_id
    ((eventWrites cfg r source trigger).getD [] ++
      (aggregateWrites cfg r source trigger draws).1.getD [])) source.id r.sources
  rw [sources_of_planAttribution (same ▸ ids) eq, List.map_map]
  apply List.map_congr_left
  intro s hs
  have lost := mem_losers_iff ids won hs
  rw [Function.comp_apply]
  by_cases winner : s.id = source.id
  · obtain rfl : s = source := List.inj_on_of_nodup_map ids hs mem winner
    rw [if_pos rfl, if_pos rfl, Write.creditAll_id, if_neg fun h => (lost.1 h).1 rfl]
    rfl
  · rw [if_neg winner, if_neg winner]
    simp only [lost, ne_eq, winner, not_false_eq_true, true_and]

theorem triggers_of_attribution (ids : (r.triggers.map Trigger.id).Nodup) :
    r'.triggers = (r.setTriggerStatus trigger.id .attributed).triggers := by
  obtain ⟨-, eq, -⟩ := performAll_eq_ok_iff.1 performed
  rw [foldlM_onTriggers_attribution] at eq
  exact Write.onTriggers_setTriggerStatus ids eq

theorem attributions_of_attribution :
    r'.attributions = r.attributions ++ [Attribution.of source trigger] := by
  obtain ⟨-, -, -, -, eq⟩ := performAll_eq_ok_iff.1 performed
  rw [foldlM_onAttributions_attribution] at eq
  exact (Option.some.inj eq).symm

theorem eventCredit_of_attribution (ids : (r.eventReports.map EventReport.id).Nodup) :
    ∃ deleted inserted,
      r'.eventReports = remainingReports deleted r.eventReports ++ inserted ∧
      EventCredit cfg r source trigger (creditedSource cfg r source trigger draws) deleted
        inserted ∧
      ((eventWrites cfg r source trigger).isSome = true → inserted ≠ [] ∨
        ∃ spec t, source.reportSpec = some spec ∧
          (creditedSource cfg r source trigger draws).reportSpec = some (spec.record t)) := by
  rcases eventReports_of_attribution performed with ⟨none, same⟩ |
    ⟨writes, datum, selected, found, planned, eq⟩
  · refine ⟨[], [], ?_, .nothing ?_ ?_ rfl rfl, by simp [none]⟩
    · rw [same, remainingReports_nil, List.append_nil]
    · rw [eventDedupKeys_creditedSource, none]
      rfl
    · rw [reportSpec_creditedSource, none]
      rfl
  · exact ⟨_, _, ((eventExchange_eq_some_iff ids).1 eq).1,
      eventCredit_of_planEvent selected found planned, fun _ => led_of_planEvent found planned⟩

theorem aggregateCredit_of_attribution :
    ∃ aggregate : Option AggregateReport,
      r'.aggregateReports = r.aggregateReports ++ aggregate.toList ∧
      AggregateCredit cfg r source trigger (creditedSource cfg r source trigger draws) aggregate ∧
      ((aggregateWrites cfg r source trigger draws).1.isSome = true → aggregate ≠ none) := by
  obtain ⟨-, -, -, inserted, -⟩ := performAll_eq_ok_iff.1 performed
  rw [foldlM_onAggregateReports_attribution] at inserted
  rcases found : (aggregateWrites cfg r source trigger draws).1 with _ | writes
  · have only_event : creditedSource cfg r source trigger draws =
        Write.creditAll ((eventWrites cfg r source trigger).getD []) source := by
      unfold creditedSource
      rw [found, Option.getD_none, List.append_nil]
    rw [found] at inserted
    refine ⟨none, ?_, .nothing ?_ ?_ rfl, by simp⟩
    · rw [Option.toList_none, List.append_nil]
      exact (Option.some.inj inserted).symm
    · rw [only_event]
      exact creditAll_eventWrites Source.contributions (fun _ _ => rfl) (fun _ _ => rfl) source
    · rw [only_event]
      exact creditAll_eventWrites Source.aggregateDedupKeys (fun _ _ => rfl) (fun _ _ => rfl) source
  · rw [found, Option.getD_some] at inserted
    obtain ⟨report, dedupKey, decided, room, rfl⟩ := aggregateWrites_eq_some found
    exact ⟨some report, aggregateReports_of_planAggregate inserted,
      aggregateCredit_of_insert decided room found, by simp⟩

end

/-! ## What has been earned -/

namespace EventCredit

variable {deleted inserted : List EventReport}

/-- Only stored reports of the winner are deleted. -/
theorem own (h : EventCredit cfg r source trigger credited deleted inserted) {report : EventReport}
    (mem : report ∈ deleted) : report ∈ r.eventReports ∧ report.sourceId = source.id := by
  rcases h.exchanged with ⟨rfl, -⟩ | ⟨-, datum, rfl, -⟩
  · cases mem
  · exact own_delete_eventExchange mem

/-- What is inserted is a pending report of the winner. -/
theorem pending (h : EventCredit cfg r source trigger credited deleted inserted)
    {report : EventReport} (mem : report ∈ inserted) :
    report.sourceId = source.id ∧ report.status = .pending := by
  rcases h.exchanged with ⟨-, rfl⟩ | ⟨-, datum, -, rfl⟩
  · cases mem
  · exact of_mem_insert_eventExchange mem

end EventCredit

theorem AggregateCredit.exists_eq {aggregate : Option AggregateReport}
    (h : AggregateCredit cfg r source trigger credited aggregate) {report : AggregateReport}
    (mem : report ∈ aggregate) : ∃ delay, report = aggregateReport source trigger delay := by
  cases h with
  | nothing _ _ inserts =>
    rw [inserts] at mem
    cases mem
  | @report delay _ _ _ _ inserts =>
    rw [inserts] at mem
    cases mem
    exact ⟨delay, rfl⟩

theorem AggregateCredit.own {aggregate : Option AggregateReport}
    (h : AggregateCredit cfg r source trigger credited aggregate) {report : AggregateReport}
    (mem : report ∈ aggregate) : report.sourceId = source.id := by
  obtain ⟨delay, rfl⟩ := h.exists_eq mem
  rfl

theorem Award.Valid.eventReports_of_ne {award : Award} (valid : award.Valid trigger r)
    (ids : (r.eventReports.map EventReport.id).Nodup) {other : String}
    (ne : other ≠ award.winner.id) :
    (award.apply trigger r).eventReports.filter (·.sourceId == other) =
      r.eventReports.filter (·.sourceId == other) :=
  filter_exchange_of_ne ne ids valid.deleted valid.inserted

theorem Award.Valid.aggregateReports_of_ne {award : Award} (valid : award.Valid trigger r)
    {other : String} (ne : other ≠ award.winner.id) :
    (award.apply trigger r).aggregateReports.filter (·.sourceId == other) =
      r.aggregateReports.filter (·.sourceId == other) := by
  have none : award.aggregate.toList.filter (·.sourceId == other) = [] := by
    refine List.filter_eq_nil_iff.2 fun report hr same => ne ?_
    rw [← valid.aggregate report (Option.mem_toList.1 hr)]
    exact (beq_iff_eq.1 same).symm
  show (r.aggregateReports ++ award.aggregate.toList).filter _ = _
  rw [List.filter_append, none, List.append_nil]

/-- The attribution of a trigger, when its plan is carried out. -/
theorem earned_of_attribution (keyed : r.WellKeyed)
    (won : selectSource (r.sources.filter (·.matchesTrigger trigger)) trigger =
      some (source, losers))
    (admitted : isBlocked cfg r source trigger = false) (truthful : source.mode = .truthfully)
    (led : ((eventWrites cfg r source trigger).isSome ||
      (aggregateWrites cfg r source trigger draws).1.isSome) = true)
    (performed : performAll ((eventWrites cfg r source trigger).getD [] ++
      ((aggregateWrites cfg r source trigger draws).1.getD [] ++
        planAttribution source losers trigger)) r = .ok () r')
    (registered : r'.sources.map Source.asRegistered = r.sources.map Source.asRegistered) :
    ∃ award : Award, award.Earned cfg trigger r ∧ r' = award.apply trigger r := by
  have sources := sources_of_attribution performed keyed.sources won
  obtain ⟨deleted, inserted, events, event, event_led⟩ :=
    eventCredit_of_attribution performed keyed.eventReports
  obtain ⟨aggregate, aggregates, other, other_led⟩ := aggregateCredit_of_attribution performed
  have mem : source ∈ r.sources := (of_selectSource won).1
  have same : (creditedSource cfg r source trigger draws).asRegistered = source.asRegistered := by
    rw [sources, List.map_map] at registered
    have at_winner := List.map_inj_left.1 registered source mem
    rwa [Function.comp_apply, if_pos rfl] at at_winner
  have something : inserted ≠ [] ∨ aggregate ≠ none ∨ ∃ spec t, source.reportSpec = some spec ∧
      (creditedSource cfg r source trigger draws).reportSpec = some (spec.record t) := by
    rcases Bool.or_eq_true_iff.1 led with by_event | by_aggregate
    · rcases event_led by_event with report | history
      · exact .inl report
      · exact .inr (.inr history)
    · exact .inr (.inl (other_led by_aggregate))
  have valid : Award.Valid ⟨source, creditedSource cfg r source trigger draws, deleted, inserted,
      aggregate⟩ trigger r :=
    { won := ⟨losers, won⟩
      registered := same
      status := Write.creditAll_status _ source
      deleted := fun _ => event.own
      inserted := fun _ mem => (event.pending mem).1
      aggregate := fun _ => other.own
      led := something }
  refine ⟨_, ⟨valid, admitted, truthful, event, other⟩, ?_⟩
  exact Records.ext sources (triggers_of_attribution performed keyed.triggers) events aggregates
    (attributions_of_attribution performed)

/-! ## All plans -/

theorem ignored_of_performAll (ids : (r.triggers.map Trigger.id).Nodup) {id : String}
    {status : TriggerStatus}
    (h : performAll [.setTriggerStatus [id] status] r = .ok () r') :
    r' = r.setTriggerStatus id status := by
  obtain ⟨sources, triggers, events, aggregates, attributions⟩ := performAll_eq_ok_iff.1 h
  rw [List.foldlM_cons] at triggers
  obtain ⟨triggers', set, same⟩ := Option.bind_eq_some_iff.1 triggers
  cases Option.some.inj same
  refine Records.ext ?_ (Write.onTriggers_setTriggerStatus ids set) ?_ ?_ ?_
  · exact (Option.some.inj sources).symm
  · exact (Option.some.inj events).symm
  · exact (Option.some.inj aggregates).symm
  · exact (Option.some.inj attributions).symm

/-- What it comes to when the plan for a trigger is carried out. -/
theorem performAll_triggerPlan_cases (keyed : r.WellKeyed)
    (performed : performAll (triggerPlan cfg r trigger draws).writes r = .ok () r') :
    (trigger.status ≠ .pending ∧ (triggerPlan cfg r trigger draws).value = .skipped ∧ r' = r) ∨
      (trigger.status = .pending ∧ (triggerPlan cfg r trigger draws).value = .ignored ∧
        r' = r.setTriggerStatus trigger.id .ignored) ∨
        (trigger.status = .pending ∧ (triggerPlan cfg r trigger draws).value = .attributed ∧
          ∃ award : Award, award.Earned cfg trigger r ∧ r' = award.apply trigger r) := by
  have registered : r'.sources.map Source.asRegistered = r.sources.map Source.asRegistered :=
    asRegistered_of_performAll performed fun _ hw =>
      keepsRules_triggerPlan cfg trigger draws keyed.sources hw
  rcases triggerPlan_cases cfg r trigger draws with
    ⟨dealtWith, value, writes⟩ | ⟨pending, value, writes⟩ |
      ⟨source, losers, pending, won, -, admitted, truthful, led, value, writes⟩
  · rw [writes] at performed
    cases performed
    exact .inl ⟨dealtWith, value, rfl⟩
  · rw [writes] at performed
    exact .inr (.inl ⟨pending, value, ignored_of_performAll keyed.triggers performed⟩)
  · rw [writes] at performed
    exact .inr (.inr ⟨pending, value,
      earned_of_attribution keyed won admitted truthful led performed registered⟩)

end Job

end AttributionReporting
