import AttributionReporting.Flexible.Credit
import AttributionReporting.Proofs.Flexible.Ranking
import AttributionReporting.Proofs.Flexible.Reconciled
import AttributionReporting.Sample

/-!
# The life of a flexible source

A `FlexibleState` is the report spec of a source with the event reports of the whole store. Triggers
are credited one after another, each with what the reports depend on at that time, and what becomes
of a trigger is carried out in the store; when the store refuses an insertion the whole step is
undone. In between, standing reports are delivered or marked to be deleted. `run` is the state after
any list of such events.
-/

namespace AttributionReporting

/-! ## Outcomes -/

namespace ReportSpec

variable {spec next : ReportSpec} {source : Source} {t : AttributedTrigger}
  {existing insert delete : List EventReport} {ctx : ReportContext} {eventTime : Int}

theorem rulesFor_eq_ok {rules : TriggerSpec} (h : spec.rulesFor eventTime t = .ok rules) :
    spec.config.triggerSpecFor? t.data = some rules ∧
      ∃ windowEnd, rules.windowEnd? eventTime t = some windowEnd := by
  unfold rulesFor at h
  rcases hr : spec.config.triggerSpecFor? t.data with _ | found
  · rw [hr] at h
    cases h
  · rw [hr] at h
    dsimp only at h
    split_ifs at h with duplicate outside
    cases h
    exact ⟨rfl, Option.ne_none_iff_exists'.1 fun eq => outside (by rw [eq]; rfl)⟩

/-- No trigger of the history has the dedup key of one that joins it. -/
theorem dedupKey_of_rulesFor {rules : TriggerSpec} (h : spec.rulesFor eventTime t = .ok rules) :
    t.dedupKey.any spec.hasDedupKey = false := by
  unfold rulesFor at h
  split at h
  · cases h
  · split_ifs at h with duplicate
    exact Bool.not_eq_true _ ▸ duplicate

/-- A trigger moves no report when it lets no new bucket of its trigger data be reached. -/
theorem credit_eq_historyOnly_iff :
    spec.credit source t existing ctx = .historyOnly next ↔
      next = spec.record t ∧ ∃ rules, spec.rulesFor source.eventTime t = .ok rules ∧
        crossedCount (rules.thresholds spec.config.maxReports)
            (spec.summaryValue source.eventTime t.data) =
          crossedCount (rules.thresholds spec.config.maxReports)
            ((spec.record t).summaryValue source.eventTime t.data) := by
  unfold credit
  rcases hr : spec.rulesFor source.eventTime t with reason | rules
  · simp
  · dsimp only
    split_ifs with same
    · rw [FlexibleOutcome.historyOnly.injEq, eq_comm, iff_self_and]
      exact fun _ => ⟨rules, rfl, same⟩
    · simp [same]

/-- What a trigger does when it moves reports. -/
theorem credit_eq_reports (h : spec.credit source t existing ctx = .reports next insert delete) :
    next = spec.record t ∧ (∃ rules, spec.rulesFor source.eventTime t = .ok rules) ∧
      reconcile spec.maxReports (next.desired source ctx) existing ctx.now = (insert, delete) := by
  unfold credit at h
  rcases hr : spec.rulesFor source.eventTime t with reason | rules
  · rw [hr] at h
    cases h
  · rw [hr] at h
    dsimp only at h
    split_ifs at h
    cases h
    exact ⟨rfl, ⟨rules, rfl⟩, rfl⟩

/-- A trigger that lets a new bucket be reached has the reports reconciled. -/
theorem credit_of_crossed {rules : TriggerSpec} (ok : spec.rulesFor source.eventTime t = .ok rules)
    (more : crossedCount (rules.thresholds spec.config.maxReports)
        (spec.summaryValue source.eventTime t.data) ≠
      crossedCount (rules.thresholds spec.config.maxReports)
        ((spec.record t).summaryValue source.eventTime t.data)) :
    spec.credit source t existing ctx =
      .reports (spec.record t)
        (reconcile spec.maxReports ((spec.record t).desired source ctx) existing ctx.now).1
        (reconcile spec.maxReports ((spec.record t).desired source ctx) existing ctx.now).2 := by
  unfold credit
  rw [ok]
  dsimp only
  rw [if_neg more]

/-- A trigger that moves no report lets no new bucket be reached. -/
theorem reaches_of_historyOnly (h : spec.credit source t existing ctx = .historyOnly next)
    {data threshold : UInt64} (reached : next.Reaches source.eventTime data threshold) :
    spec.Reaches source.eventTime data threshold := by
  obtain ⟨rfl, rules, ok, same⟩ := credit_eq_historyOnly_iff.1 h
  obtain ⟨rules', hr', mem, le⟩ := reached
  by_cases eq : t.data = data
  · subst eq
    have hr := (rulesFor_eq_ok ok).1
    change spec.config.triggerSpecFor? t.data = some rules' at hr'
    rw [hr] at hr'
    cases hr'
    exact ⟨rules, hr, mem,
      le_of_crossedCount_eq (spec.summaryValue_le_record source.eventTime t.data t) same mem le⟩
  · rw [summaryValue_record_of_ne eq] at le
    exact ⟨rules', hr', mem, le⟩

/-- A trigger that moves no report and ranks last is credited with nothing. -/
theorem credits_of_historyOnly (h : spec.credit source t existing ctx = .historyOnly next)
    (last : ∀ u ∈ spec.history, u.ranksBefore t = true) :
    next.credits source.eventTime = spec.credits source.eventTime := by
  obtain ⟨rfl, rules, ok, same⟩ := credit_eq_historyOnly_iff.1 h
  have hr := (rulesFor_eq_ok ok).1
  have after : (spec.record t).summaryValue source.eventTime t.data =
      rules.total source.eventTime t.data (spec.history ++ [t]) := summaryValue_of_some hr
  rw [summaryValue_of_some hr, after] at same
  have nothing : spec.config.creditsFor source.eventTime (rankTriggers spec.history) t = [] := by
    apply FlexibleConfig.creditsFor_eq_nil
    intro rules' hr' threshold mem le
    obtain rfl : rules = rules' := Option.some.inj (hr.symm.trans hr')
    have ranked := rankTriggers_perm spec.history
    rw [TriggerSpec.total_perm (ranked.append_right [t])] at le
    rw [TriggerSpec.total_perm ranked]
    exact le_of_crossedCount_eq (rules.total_le_total_append _ _ _ _) same mem le
  show spec.config.creditsFrom source.eventTime [] (rankTriggers (spec.history ++ [t])) =
    spec.config.creditsFrom source.eventTime [] (rankTriggers spec.history)
  rw [rankTriggers_concat last, FlexibleConfig.creditsFrom_concat, List.nil_append, nothing,
    List.append_nil]

/-! ## Desired reports -/

theorem map_key_desired (spec : ReportSpec) (source : Source) (ctx : ReportContext) :
    (spec.desired source ctx).map EventReport.key =
      (spec.credits source.eventTime).map Credit.key := by
  rw [desired_eq_map, List.map_map]
  rfl

theorem desired_pending {r : EventReport} (h : r ∈ spec.desired source ctx) :
    r.status = .pending ∧ r.sourceId = source.id := by
  rw [desired_eq_map] at h
  obtain ⟨c, -, rfl⟩ := List.mem_map.1 h
  exact ⟨rfl, rfl⟩

theorem destinations_of_mem_desired {r : EventReport} (h : r ∈ spec.desired source ctx) :
    r.destinations = source.allDestinations := by
  rw [desired_eq_map] at h
  obtain ⟨c, -, rfl⟩ := List.mem_map.1 h
  rfl

end ReportSpec

/-! ## States and events -/

/-- A flexible source: its report spec, and the event reports of the store. -/
structure FlexibleState where
  spec : ReportSpec
  stored : List EventReport

/-- What happens to a flexible source and to its reports. -/
inductive FlexibleEvent
  /-- A trigger is credited to the source. -/
  | credit (t : AttributedTrigger) (ctx : ReportContext)
  /-- A standing report is delivered. -/
  | deliver (id : String)
  /-- A standing report is marked to be deleted. -/
  | retract (id : String)

namespace EventReport

/-- A report with another status, if it has the given id and is standing. -/
def settle (id : String) (status : EventReportStatus) (r : EventReport) : EventReport :=
  if r.id = id ∧ r.isStanding = true then { r with status } else r

variable {id : String} {status : EventReportStatus} {r : EventReport}

@[simp]
theorem settle_id : (r.settle id status).id = r.id := by
  unfold settle
  split_ifs <;> rfl

@[simp]
theorem settle_sourceId : (r.settle id status).sourceId = r.sourceId := by
  unfold settle
  split_ifs <;> rfl

@[simp]
theorem settle_reportTime : (r.settle id status).reportTime = r.reportTime := by
  unfold settle
  split_ifs <;> rfl

@[simp]
theorem settle_slot : (r.settle id status).slot = r.slot := by
  unfold settle
  split_ifs <;> rfl

/-- No report becomes standing. -/
theorem isStanding_of_settle (h : (r.settle id status).isStanding = true) :
    r.isStanding = true := by
  unfold settle at h
  split_ifs at h with settled
  · exact settled.2
  · exact h

end EventReport

namespace FlexibleState

/-- The reports of the source. -/
def own (source : Source) (s : FlexibleState) : List EventReport :=
  s.stored.filter (·.sourceId == source.id)

/-- The standing reports of the source. -/
def standing (source : Source) (s : FlexibleState) : List EventReport :=
  (s.own source).filter (·.isStanding)

/-- Carries out what becomes of a trigger, unless the store refuses. -/
def apply (s : FlexibleState) : FlexibleOutcome → FlexibleState
  | .rejected _ => s
  | .historyOnly next => { s with spec := next }
  | .reports next insert delete =>
    match exchangeReports? insert delete s.stored with
    | some stored => ⟨next, stored⟩
    | none => s

/-- Gives the report with an id another status, if it is standing. -/
def settle (id : String) (status : EventReportStatus) (s : FlexibleState) : FlexibleState :=
  { s with stored := s.stored.map (EventReport.settle id status) }

/-- The state after an event. -/
def step (source : Source) (s : FlexibleState) : FlexibleEvent → FlexibleState
  | .credit t ctx => s.apply (s.spec.credit source t (s.own source) ctx)
  | .deliver id => s.settle id .delivered
  | .retract id => s.settle id .markedToDelete

/-- The state after some events. -/
def run (source : Source) (s : FlexibleState) (events : List FlexibleEvent) : FlexibleState :=
  events.foldl (step source) s

variable {source : Source} {s : FlexibleState}

theorem run_concat (events : List FlexibleEvent) (event : FlexibleEvent) :
    run source s (events ++ [event]) = step source (run source s events) event := by
  rw [run, List.foldl_append]
  rfl

/-- What every step keeps holds after any events. -/
theorem run_invariant {inv : FlexibleState → Prop}
    (keeps : ∀ s event, inv s → inv (step source s event)) (start : inv s)
    (events : List FlexibleEvent) : inv (run source s events) := by
  induction events generalizing s with
  | nil => exact start
  | cons event rest ih => exact ih (keeps s event start)

/-- A trigger that is credited joins the history or leaves it as it is. -/
theorem spec_step_credit (source : Source) (s : FlexibleState) (t : AttributedTrigger)
    (ctx : ReportContext) :
    (s.step source (.credit t ctx)).spec = s.spec ∨
      (s.step source (.credit t ctx)).spec = s.spec.record t := by
  rw [step]
  rcases h : s.spec.credit source t (s.own source) ctx with _ | next | ⟨next, insert, delete⟩
  · exact .inl rfl
  · obtain ⟨rfl, -⟩ := ReportSpec.credit_eq_historyOnly_iff.1 h
    exact .inr rfl
  · obtain ⟨rfl, -⟩ := ReportSpec.credit_eq_reports h
    rw [apply]
    split
    · exact .inr rfl
    · exact .inl rfl

/-! ## One change of status -/

theorem nodup_ids_settle (ids : (s.stored.map EventReport.id).Nodup) (id : String)
    (status : EventReportStatus) : ((s.settle id status).stored.map EventReport.id).Nodup := by
  have same : (s.settle id status).stored.map EventReport.id = s.stored.map EventReport.id := by
    rw [settle, List.map_map]
    exact List.map_congr_left fun r _ => EventReport.settle_id
  rwa [same]

theorem own_settle (id : String) (status : EventReportStatus) :
    (s.settle id status).own source = (s.own source).map (EventReport.settle id status) := by
  unfold own settle
  rw [List.filter_map]
  congr 1
  apply List.filter_congr
  intro r _
  rw [Function.comp_apply, EventReport.settle_sourceId]

/-- The reports left standing are some of those that stood before. -/
theorem standing_settle_sublist (id : String) (status : EventReportStatus) :
    (((s.settle id status).standing source).map EventReport.slot).Sublist
      ((s.standing source).map EventReport.slot) := by
  have slots : EventReport.slot ∘ EventReport.settle id status = EventReport.slot :=
    funext fun r => EventReport.settle_slot
  unfold standing
  rw [own_settle, List.filter_map, List.map_map, slots]
  refine (List.monotone_filter_right _ fun r hr => ?_).map _
  exact EventReport.isStanding_of_settle hr

/-! ## One exchange -/

variable {t : AttributedTrigger} {ctx : ReportContext} {next : ReportSpec}
  {insert delete : List EventReport}

theorem nodup_ids_own (ids : (s.stored.map EventReport.id).Nodup) :
    ((s.own source).map EventReport.id).Nodup :=
  ids.sublist (List.filter_sublist.map _)

theorem sourceId_of_mem_insert
    (h : s.spec.credit source t (s.own source) ctx = .reports next insert delete)
    {r : EventReport} (hr : r ∈ insert) : r.sourceId = source.id := by
  obtain ⟨-, -, eq⟩ := ReportSpec.credit_eq_reports h
  exact (ReportSpec.desired_pending (mem_of_mem_openReports (mem_of_mem_insert eq hr)).1).2

/-- What the store holds after a trigger that moves reports, if it accepts them. -/
theorem exchange_eq_some_iff (ids : (s.stored.map EventReport.id).Nodup)
    (h : s.spec.credit source t (s.own source) ctx = .reports next insert delete)
    {after : List EventReport} :
    exchangeReports? insert delete s.stored = some after ↔
      after = remainingReports delete s.stored ++ insert ∧
        (after.map EventReport.id).Nodup := by
  obtain ⟨-, -, eq⟩ := ReportSpec.credit_eq_reports h
  apply exchangeReports?_eq_some_iff ids (nodup_delete_ids (nodup_ids_own ids) eq)
  intro r hr
  have own := (mem_changeableReports.1 (mem_of_mem_delete eq hr)).1
  exact List.mem_map_of_mem (List.mem_of_mem_filter own)

/-- An exchange takes place among the reports of the source. -/
theorem own_exchange (h : s.spec.credit source t (s.own source) ctx = .reports next insert delete)
    (spec : ReportSpec) :
    own source ⟨spec, remainingReports delete s.stored ++ insert⟩ =
      remainingReports delete (s.own source) ++ insert :=
  filter_exchange_self fun _ hr => sourceId_of_mem_insert h hr

end FlexibleState

/-! ## Samples -/

namespace Sample

/-- Rules that count the triggers with data 1 or 2; every report is due two days after the
source. -/
def flexibleConfig (maxReports : UInt32) : FlexibleConfig where
  triggerSpecs := [⟨[1, 2], ⟨0, [Time.days 2]⟩, .count, []⟩]
  maxReports := maxReports
  flipProbability := none

/-- The sample source with a single report to give, and no triggers yet. -/
def flexibleSpec : ReportSpec := ⟨flexibleConfig 1, rfl, []⟩

/-- A trigger that comes some hours after the sample source. -/
def attributed (id : String) (hours : Int) (data : UInt64) (priority : Int) :
    AttributedTrigger where
  triggerId := id
  time := source.eventTime + Time.hours hours
  data := data
  priority := priority
  value := 1
  dedupKey := none

/-- What the reports depend on when a trigger is credited at its own time. -/
def onTime (t : AttributedTrigger) : ReportContext where
  now := t.time
  delay := 0
  triggerRate := 0
  triggerDebugKey := none

def credit (t : AttributedTrigger) : FlexibleEvent := .credit t (onTime t)

end Sample

end AttributionReporting
