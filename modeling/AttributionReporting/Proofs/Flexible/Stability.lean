import AttributionReporting.Proofs.Flexible.Completeness
import AttributionReporting.Proofs.Flexible.Shortcut

/-!
# Reconciling once is enough

When a trigger moves reports, what is left in the store is in step with the history
(`inStep_exchange`), and it stays so for good: asked again at any later time, after any of the
reports were delivered, reconciliation inserts and deletes nothing (`reconciled_once`). For this the
triggers need ids of their own and the delay has to stay the same; the times at which they were
credited may come in any order.
-/

open scoped List

namespace AttributionReporting

/-- A report after the chosen ones among those standing were delivered. -/
def EventReport.deliverIf (chosen : EventReport → Bool) (r : EventReport) : EventReport :=
  if r.isStanding ∧ chosen r then { r with status := .delivered } else r

namespace EventReport

variable {chosen : EventReport → Bool} {r : EventReport}

theorem slot_deliverIf : (r.deliverIf chosen).slot = r.slot := by
  unfold deliverIf
  split_ifs <;> rfl

theorem isStanding_deliverIf : (r.deliverIf chosen).isStanding = r.isStanding := by
  unfold deliverIf
  split_ifs with delivered
  · rw [delivered.1]
    rfl
  · rfl

theorem isLocked_deliverIf {now : Int} (h : r.isLocked now = true) :
    (r.deliverIf chosen).isLocked now = true := by
  unfold deliverIf
  split_ifs
  · rfl
  · exact h

end EventReport

namespace FlexibleState

variable {source : Source} {delay : Int} {s : FlexibleState} {t : AttributedTrigger}
  {ctx : ReportContext} {next : ReportSpec} {insert delete : List EventReport}

/-! ## Runs -/

theorem Identified.step (identified : Identified source delay s) {event : FlexibleEvent}
    (steady : event.IsSteady delay)
    (fresh : ∀ id ∈ event.triggerId?, id ∉ s.spec.history.map (·.triggerId)) :
    Identified source delay (s.step source event) := by
  cases event with
  | deliver id => exact identified.deliver id
  | retract id => exact steady.elim
  | credit t ctx =>
    have new : t.triggerId ∉ s.spec.history.map (·.triggerId) := fresh _ rfl
    rw [FlexibleState.step]
    rcases h : s.spec.credit source t (s.own source) ctx with _ | next | ⟨next, insert, delete⟩
    · exact identified
    · exact identified.historyOnly new h
    · rw [identified.apply_reports new steady h]
      exact identified.exchange new steady h

/-- A source without reports, whatever its history, has nothing but distinct ids. -/
theorem identified_of_no_reports {spec : ReportSpec}
    (triggers : (spec.history.map (·.triggerId)).Nodup) :
    Identified source delay ⟨spec, []⟩ :=
  ⟨sound_of_forall_ne spec List.nodup_nil (by simp), triggers, by simp⟩

theorem identified_run {spec : ReportSpec} {events : List FlexibleEvent}
    (steady : ∀ event ∈ events, event.IsSteady delay)
    (triggers : (spec.history.map (·.triggerId) ++
      events.filterMap FlexibleEvent.triggerId? ++ [t.triggerId]).Nodup) :
    let s := run source ⟨spec, []⟩ events
    Identified source delay s ∧ t.triggerId ∉ s.spec.history.map (·.triggerId) := by
  obtain ⟨before, -, new⟩ := List.nodup_append.1 triggers
  obtain ⟨known, credited, apart⟩ := List.nodup_append.1 before
  have start : Identified source delay ⟨spec, []⟩ := identified_of_no_reports known
  obtain ⟨identified, members⟩ := run_of_distinct (fun _ _ h allowed new => h.step allowed new)
    start steady credited fun id hid old => apart id old id hid rfl
  refine ⟨identified, fun mem => ?_⟩
  exact new t.triggerId (List.mem_append.2 (members _ mem)) _ (List.mem_singleton_self _) rfl

/-! ## After a reconciliation -/

/-- What is left of the reports of a source is in step with its history from then on, whichever of
them are delivered. -/
theorem Identified.inStep_later (identified : Identified source delay s)
    (h : s.spec.credit source t (s.own source) ctx = .reports next insert delete)
    {later : ReportContext} (sameDelay : later.delay = ctx.delay) (le : ctx.now ≤ later.now)
    (chosen : EventReport → Bool) :
    next.InStep source
      ((remainingReports delete (s.own source) ++ insert).map (EventReport.deliverIf chosen))
      later := by
  have keys := nodup_keys_exchange identified.ids identified.keys h
  have inStep := inStep_exchange identified.ids h
  unfold standing at keys
  rw [own_exchange h] at keys inStep
  exact inStep.map sameDelay le keys (fun _ => EventReport.slot_deliverIf)
    (fun _ => EventReport.isStanding_deliverIf) (fun _ => EventReport.isLocked_deliverIf)

/-- The reports of a source can be exchanged as reconciliation says. -/
theorem Identified.exchange_own (identified : Identified source delay s)
    (fresh : t.triggerId ∉ s.spec.history.map (·.triggerId)) (sameDelay : ctx.delay = delay)
    (h : s.spec.credit source t (s.own source) ctx = .reports next insert delete) :
    exchangeReports? insert delete (s.own source) =
      some (remainingReports delete (s.own source) ++ insert) := by
  have ids := identified.nodup_ids_exchange fresh sameDelay h
  have own_ids : ((own source ⟨next, remainingReports delete s.stored ++ insert⟩).map
      EventReport.id).Nodup := nodup_ids_own ids
  rw [own_exchange h] at own_ids
  obtain ⟨-, -, eq⟩ := ReportSpec.credit_eq_reports h
  refine (exchangeReports?_eq_some_iff (nodup_ids_own identified.ids)
    (nodup_delete_ids (nodup_ids_own identified.ids) eq) fun r hr => ?_).2 ⟨rfl, own_ids⟩
  exact List.mem_map_of_mem (mem_changeableReports.1 (mem_of_mem_delete eq hr)).1

/-- Take a source without reports and any run in which triggers with ids of their own are credited
under one delay, at whatever times, and reports are delivered. When the next trigger moves reports,
the exchange can be carried out, and on what it leaves reconciliation changes nothing any more, at
the same time or later and after any of the standing reports were delivered. -/
theorem reconciled_once (source : Source) (spec : ReportSpec) (delay : Int)
    (events : List FlexibleEvent) (steady : ∀ event ∈ events, event.IsSteady delay)
    (t : AttributedTrigger)
    (triggers : (spec.history.map (·.triggerId) ++
      events.filterMap FlexibleEvent.triggerId? ++ [t.triggerId]).Nodup)
    (ctx : ReportContext) (sameDelay : ctx.delay = delay) (next : ReportSpec)
    (insert delete : List EventReport) :
    let s := run source ⟨spec, []⟩ events
    s.spec.credit source t (s.own source) ctx = .reports next insert delete →
      ∃ after, exchangeReports? insert delete (s.own source) = some after ∧
        ∀ now, ctx.now ≤ now → ∀ chosen : EventReport → Bool,
          reconcile next.maxReports (next.desired source { ctx with now })
            (after.map (EventReport.deliverIf chosen)) now = ([], []) := by
  intro s h
  have ids : Identified source delay s ∧ t.triggerId ∉ s.spec.history.map (·.triggerId) :=
    identified_run steady triggers
  obtain ⟨identified, fresh⟩ := ids
  refine ⟨_, identified.exchange_own fresh sameDelay h, fun now le chosen => ?_⟩
  have later : ({ ctx with now } : ReportContext).delay = ctx.delay := rfl
  exact identified.inStep_later h later le chosen

/-- Rules with two windows, of one day each, for a source with a single report to give. -/
def sampleWindows : ReportSpec where
  config :=
    { triggerSpecs := [⟨[1, 2], ⟨0, [Time.days 1, Time.days 2]⟩, .count, []⟩]
      maxReports := 1
      flipProbability := none }
  valid := rfl
  history := []

/-- A trigger that comes after the first one got the only report. -/
def sampleFirst : FlexibleState :=
  run Sample.source ⟨sampleWindows, []⟩ [Sample.credit (Sample.attributed "trigger1" 1 1 1)]

def sampleSecond : AttributedTrigger := Sample.attributed "trigger2" 2 2 5

/-- Half a day after the first window. -/
def sampleLater : ReportContext :=
  { Sample.onTime sampleSecond with now := Sample.source.eventTime + Time.hours 36 }

/-- The second trigger takes the only report from the first. When the first window is over that
report is overdue, and both triggers would have a report due in the second window, but none of these
is inserted. -/
theorem reconciled_once_sample :
    ∃ next insert delete,
      sampleFirst.spec.credit Sample.source sampleSecond (sampleFirst.own Sample.source)
          (Sample.onTime sampleSecond) = .reports next insert delete ∧
        insert.map EventReport.id = ["source1:trigger2:1"] ∧
        delete.map EventReport.id = ["source1:trigger1:1"] ∧
        (next.desired Sample.source sampleLater).map (fun r => r.reportTime - sampleLater.now) =
          [Time.hours 12, Time.hours 12] ∧
        ∃ after, exchangeReports? insert delete (sampleFirst.own Sample.source) = some after ∧
          reconcile next.maxReports (next.desired Sample.source sampleLater)
            (after.map (EventReport.deliverIf fun _ => false)) sampleLater.now = ([], []) := by
  have steady : ∀ event ∈ [Sample.credit (Sample.attributed "trigger1" 1 1 1)],
      event.IsSteady 0 := by
    simp [FlexibleEvent.IsSteady, Sample.credit, Sample.onTime]
  have rules : sampleFirst.spec.rulesFor Sample.source.eventTime sampleSecond =
      .ok ⟨[1, 2], ⟨0, [Time.days 1, Time.days 2]⟩, .count, []⟩ := by cbv
  have moved : sampleFirst.spec.credit Sample.source sampleSecond (sampleFirst.own Sample.source)
      (Sample.onTime sampleSecond) = .reports _ _ _ :=
    ReportSpec.credit_of_crossed rules (by cbv)
  obtain ⟨after, exchanged, stable⟩ := reconciled_once Sample.source sampleWindows 0
    [Sample.credit (Sample.attributed "trigger1" 1 1 1)] steady sampleSecond (by decide)
    (Sample.onTime sampleSecond) rfl _ _ _ moved
  exact ⟨_, _, _, moved, by cbv, by cbv, by cbv, after, exchanged,
    stable sampleLater.now (by decide) fun _ => false⟩

end FlexibleState

end AttributionReporting
