import AttributionReporting.Proofs.Aggregate.Decision
import AttributionReporting.Proofs.Job.Plan

/-!
# Delays make no difference

The delay of an aggregate report is drawn at random, and nothing that the job does depends on it. So
processing a trigger does the same to two stores that differ in nothing but the times for which
aggregate reports are scheduled, whatever numbers the generator gives
(`process_withoutDelays`).
-/

namespace AttributionReporting

def AggregateReport.withoutDelay (report : AggregateReport) : AggregateReport :=
  { report with scheduledReportTime := 0 }

/-- The records as if no aggregate report were delayed. -/
def Records.withoutDelays (r : Records) : Records :=
  { r with aggregateReports := r.aggregateReports.map AggregateReport.withoutDelay }

theorem withoutDelays_eq_iff {r r' : Records} :
    r.withoutDelays = r'.withoutDelays ↔
      r.sources = r'.sources ∧ r.triggers = r'.triggers ∧ r.eventReports = r'.eventReports ∧
        r.aggregateReports.map AggregateReport.withoutDelay =
          r'.aggregateReports.map AggregateReport.withoutDelay ∧
        r.attributions = r'.attributions :=
  Records.ext_iff

namespace Write

def withoutDelay : Write → Write
  | insertAggregateReport report => insertAggregateReport report.withoutDelay
  | w => w

end Write

/-! ## Writes -/

theorem updateSource_withoutDelays (id : String) (change : Source → Source) (r : Records) :
    Records.updateSource id change r.withoutDelays =
      mapState Records.withoutDelays (Records.updateSource id change r) := by
  have same : r.withoutDelays.sources = r.sources := rfl
  unfold Records.updateSource
  rw [same]
  cases modifyKey? Source.id id change r.sources <;> rfl

theorem updateTrigger_withoutDelays (id : String) (change : Trigger → Trigger) (r : Records) :
    Records.updateTrigger id change r.withoutDelays =
      mapState Records.withoutDelays (Records.updateTrigger id change r) := by
  have same : r.withoutDelays.triggers = r.triggers := rfl
  unfold Records.updateTrigger
  rw [same]
  cases modifyKey? Trigger.id id change r.triggers <;> rfl

theorem Write.perform_withoutDelay (w : Write) (r : Records) :
    w.withoutDelay.perform r.withoutDelays = mapState Records.withoutDelays (w.perform r) := by
  cases w with
  | insertEventReport report =>
    show Records.insertEventReport report _ = mapState _ (Records.insertEventReport report r)
    unfold Records.insertEventReport
    rw [apply_ite (mapState Records.withoutDelays)]
    rfl
  | deleteEventReport id =>
    simp only [withoutDelay, perform, Records.deleteEventReport, Records.withoutDelays]
    cases removeKey? EventReport.id id r.eventReports <;> rfl
  | insertAggregateReport report =>
    have ids : r.withoutDelays.aggregateReports.any (·.id == report.withoutDelay.id) =
        r.aggregateReports.any (·.id == report.id) := List.any_map
    show Records.insertAggregateReport _ _ = mapState _ (Records.insertAggregateReport report r)
    unfold Records.insertAggregateReport
    rw [ids, apply_ite (mapState Records.withoutDelays)]
    simp only [mapState, Records.withoutDelays, List.map_append, List.map_singleton]
    rfl
  | setEventDedupKeys | setAggregateDedupKeys | setContributions | setReportSpec =>
    exact updateSource_withoutDelays _ _ r
  | setSourceStatus ids status =>
    exact forM_mapState _ (fun _ => True) (fun _ _ => keeps_true _)
      (fun id _ r _ => updateSource_withoutDelays id _ r) trivial
  | setTriggerStatus ids status =>
    exact forM_mapState _ (fun _ => True) (fun _ _ => keeps_true _)
      (fun id _ r _ => updateTrigger_withoutDelays id _ r) trivial
  | insertAttribution attribution => rfl

theorem performAll_withoutDelay (writes : List Write) (r : Records) :
    performAll (writes.map Write.withoutDelay) r.withoutDelays =
      mapState Records.withoutDelays (performAll writes r) := by
  unfold performAll
  rw [List.forM_eq_forM, List.forM_map]
  exact forM_mapState _ (fun _ => True) (fun _ _ => keeps_true _)
    (fun w _ r _ => w.perform_withoutDelay r) trivial

/-- Writes that differ in nothing but delays do the same to records that differ in nothing else. -/
theorem performAll_withoutDelays {writes writes' : List Write} {r r' : Records}
    (same_writes : writes.map Write.withoutDelay = writes'.map Write.withoutDelay)
    (same : r.withoutDelays = r'.withoutDelays) :
    mapState Records.withoutDelays (performAll writes r) =
      mapState Records.withoutDelays (performAll writes' r') := by
  rw [← performAll_withoutDelay, same_writes, same, performAll_withoutDelay]

namespace Job

variable {cfg : JobConfig} {r r' : Records} {source : Source} {trigger : Trigger}

/-! ## Plans -/

/-- Two plans that differ in nothing but delays. -/
def Plan.SameWithoutDelays {α : Type} (p q : Plan α) : Prop :=
  p.value = q.value ∧ p.writes.map Write.withoutDelay = q.writes.map Write.withoutDelay

theorem aggregateReportCount_withoutDelays (r : Records) (destination : String) :
    r.withoutDelays.aggregateReportCount destination = r.aggregateReportCount destination := by
  unfold Records.aggregateReportCount Records.withoutDelays
  rw [List.countP_map]
  rfl

theorem aggregateWrites_withoutDelays (same : r.withoutDelays = r'.withoutDelays)
    (draws draws' : Draws) :
    (aggregateWrites cfg r source trigger draws).1.map (List.map Write.withoutDelay) =
      (aggregateWrites cfg r' source trigger draws').1.map (List.map Write.withoutDelay) := by
  have count : r.aggregateReportCount trigger.destination =
      r'.aggregateReportCount trigger.destination := by
    rw [← aggregateReportCount_withoutDelays, same, aggregateReportCount_withoutDelays]
  unfold aggregateWrites
  cases obstacle : aggregateObstacle? source trigger cfg.limits with
  | some reason =>
    rw [decideAggregateReport_of_obstacle obstacle, decideAggregateReport_of_obstacle obstacle]
  | none =>
    obtain ⟨delay, left, eq⟩ := decideAggregateReport_of_free obstacle draws
    obtain ⟨delay', left', eq'⟩ := decideAggregateReport_of_free obstacle draws'
    rw [eq, eq', count]
    dsimp only
    split_ifs
    · rfl
    · simp only [Option.map_some, planAggregate, List.map_append, List.map_cons]
      rfl

theorem eventWrites_withoutDelays (same : r.withoutDelays = r'.withoutDelays) :
    eventWrites cfg r source trigger = eventWrites cfg r' source trigger := by
  obtain ⟨-, -, reports, -⟩ := withoutDelays_eq_iff.1 same
  unfold eventWrites Records.eventReportCount
  rw [reports]

theorem closingPlan_withoutDelays (attributed : Bool) (source : Source) (losers : List Source)
    (trigger : Trigger) (draws draws' : Draws) :
    (closingPlan attributed source losers trigger draws).SameWithoutDelays
      (closingPlan attributed source losers trigger draws') := by
  unfold closingPlan
  cases attributed with
  | true => exact ⟨rfl, rfl⟩
  | false => exact ⟨rfl, rfl⟩

theorem creditPlan_withoutDelays (same : r.withoutDelays = r'.withoutDelays)
    (losers : List Source) (draws draws' : Draws) :
    (creditPlan cfg r source losers trigger draws).SameWithoutDelays
      (creditPlan cfg r' source losers trigger draws') := by
  have aggregate := @aggregateWrites_withoutDelays cfg r r' source trigger same draws draws'
  have made : (aggregateWrites cfg r source trigger draws).1.isSome =
      (aggregateWrites cfg r' source trigger draws').1.isSome := by
    rw [← Option.isSome_map, aggregate, Option.isSome_map]
  have writes : ((aggregateWrites cfg r source trigger draws).1.getD []).map Write.withoutDelay =
      ((aggregateWrites cfg r' source trigger draws').1.getD []).map Write.withoutDelay := by
    have erased (o : Option (List Write)) :
        (o.getD []).map Write.withoutDelay = (o.map (List.map Write.withoutDelay)).getD [] := by
      cases o <;> rfl
    rw [erased, aggregate, ← erased]
  have closing := closingPlan_withoutDelays
    ((eventWrites cfg r' source trigger).isSome ||
      (aggregateWrites cfg r' source trigger draws').1.isSome) source losers trigger
    (aggregateWrites cfg r source trigger draws).2 (aggregateWrites cfg r' source trigger draws').2
  unfold creditPlan
  rw [eventWrites_withoutDelays same]
  dsimp only
  rw [made]
  refine ⟨closing.1, ?_⟩
  simp only [List.map_append, writes, closing.2]

theorem pendingPlan_withoutDelays (same : r.withoutDelays = r'.withoutDelays)
    (trigger : Trigger) (draws draws' : Draws) :
    (pendingPlan cfg r trigger draws).SameWithoutDelays (pendingPlan cfg r' trigger draws') := by
  obtain ⟨sources, -, -, -, attributions⟩ := withoutDelays_eq_iff.1 same
  have blocked (source : Source) : isBlocked cfg r source trigger =
      isBlocked cfg r' source trigger := by
    unfold isBlocked Records.attributionCount Records.enrollmentCount
    rw [attributions]
  unfold pendingPlan
  rw [sources]
  cases selectSource (r'.sources.filter (·.matchesTrigger trigger)) trigger with
  | none => exact ⟨rfl, rfl⟩
  | some winner =>
    obtain ⟨source, losers⟩ := winner
    dsimp only
    rw [blocked]
    split_ifs
    · exact ⟨rfl, rfl⟩
    · exact creditPlan_withoutDelays same losers draws draws'
    · exact ⟨rfl, rfl⟩

theorem triggerPlan_withoutDelays (same : r.withoutDelays = r'.withoutDelays)
    (trigger : Trigger) (draws draws' : Draws) :
    (triggerPlan cfg r trigger draws).SameWithoutDelays (triggerPlan cfg r' trigger draws') := by
  unfold triggerPlan
  split_ifs
  · exact ⟨rfl, rfl⟩
  · exact pendingPlan_withoutDelays same trigger draws draws'

/-! ## The job -/

/-- A trigger that is dealt with in one store is dealt with in the same way in another one that
differs in nothing but delays. -/
theorem process_withoutDelays {s s' t : JobState Store} {id : String} {outcome : TriggerOutcome}
    (closed : s.store.snapshot = none) (closed' : t.store.snapshot = none)
    (same : s.store.records.withoutDelays = t.store.records.withoutDelays)
    (h : process Store.backend cfg id s = .ok outcome s') :
    ∃ t', process Store.backend cfg id t = .ok outcome t' ∧ t'.store.snapshot = none ∧
      s'.store.records.withoutDelays = t'.store.records.withoutDelays := by
  obtain ⟨trigger, r, found, performed, rfl, rfl⟩ := process_eq_ok closed h
  obtain ⟨value, writes⟩ := @triggerPlan_withoutDelays cfg _ _ same trigger s.draws t.draws
  have both := performAll_withoutDelays writes same
  rw [performed, mapState, eq_comm, mapState_eq_ok_iff] at both
  obtain ⟨r', performed', after⟩ := both
  have found' : t.store.records.trigger? id = some trigger := by
    obtain ⟨-, triggers, -⟩ := withoutDelays_eq_iff.1 same
    unfold Records.trigger? at found ⊢
    rwa [← triggers]
  rw [value]
  exact ⟨_, process_of_performAll closed' found' performed', closed', after.symm⟩

end Job

end AttributionReporting
