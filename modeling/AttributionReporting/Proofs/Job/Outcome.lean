import AttributionReporting.Proofs.Job.Award
import AttributionReporting.Proofs.Job.Capacity
import Mathlib

/-!
# What processing a trigger changes

A trigger that is skipped changes nothing, and one that is ignored only gets another status. One
that is attributed changes the records as its `Award` says (`Effect`): the source that won it is
credited, the other sources that match are ignored, reports of the winner are deleted and inserted,
and the attribution is recorded. All this holds while ids are distinct among the records of each
kind (`effect_of_performAll`), and so in every state that a store comes to (`process_effect`).
-/

namespace AttributionReporting

theorem Store.Reachable.performAll {writes : List Write} {r r' : Records}
    {snapshot : Option Records} (reachable : Store.Reachable ⟨r, snapshot⟩)
    (h : performAll writes r = .ok () r') : Store.Reachable ⟨r', snapshot⟩ := by
  induction writes generalizing r with
  | nil =>
    cases h
    exact reachable
  | cons w rest ih =>
    rw [Job.performAll_cons] at h
    cases first : w.perform r with
    | ok _ r₁ =>
      rw [first] at h
      exact ih (.ok (c := .write w) reachable (Store.change_eq_ok_iff.2 ⟨first, rfl⟩)) h
    | error e r₁ =>
      rw [first] at h
      cases h

namespace Job

/-- What processing the trigger with an id does to the records. -/
inductive Effect (id : String) (r : Records) : TriggerOutcome → Records → Prop
  | skipped {trigger : Trigger} (found : r.trigger? id = some trigger)
    (dealtWith : trigger.status ≠ .pending) : Effect id r .skipped r
  | ignored {trigger : Trigger} (found : r.trigger? id = some trigger)
    (pending : trigger.status = .pending) : Effect id r .ignored (r.setTriggerStatus id .ignored)
  | attributed {trigger : Trigger} (found : r.trigger? id = some trigger)
    (pending : trigger.status = .pending) {award : Award} (valid : award.Valid trigger r)
    (events : ∀ other, other ≠ award.winner.id →
      (award.apply trigger r).eventReports.filter (·.sourceId == other) =
        r.eventReports.filter (·.sourceId == other))
    (aggregates : ∀ other, other ≠ award.winner.id →
      (award.apply trigger r).aggregateReports.filter (·.sourceId == other) =
        r.aggregateReports.filter (·.sourceId == other)) :
    Effect id r .attributed (award.apply trigger r)

variable {cfg : JobConfig} {r r' : Records} {trigger : Trigger} {draws : Draws} {id : String}

theorem id_of_trigger? (h : r.trigger? id = some trigger) : trigger.id = id :=
  beq_iff_eq.1 (List.find?_some (p := fun t : Trigger => t.id == id) h)

/-- Carrying out the plan for a trigger has the effects that its outcome says. -/
theorem effect_of_performAll (keyed : r.WellKeyed) (found : r.trigger? id = some trigger)
    (performed : performAll (triggerPlan cfg r trigger draws).writes r = .ok () r') :
    Effect id r (triggerPlan cfg r trigger draws).value r' := by
  rcases performAll_triggerPlan_cases keyed performed with ⟨dealtWith, value, rfl⟩ |
    ⟨pending, value, rfl⟩ | ⟨pending, value, award, earned, rfl⟩
  · rw [value]
    exact .skipped found dealtWith
  · rw [value, id_of_trigger? found]
    exact .ignored found pending
  · rw [value]
    exact .attributed found pending earned.toValid
      (fun _ => earned.eventReports_of_ne keyed.eventReports)
      (fun _ => earned.aggregateReports_of_ne)

section

variable {s s' : JobState Store} {outcome : TriggerOutcome} (closed : s.store.snapshot = none)
  (h : process Store.backend cfg id s = .ok outcome s')

include closed h

theorem effect_of_process (keyed : s.store.records.WellKeyed) :
    Effect id s.store.records outcome s'.store.records ∧ s'.store.snapshot = none := by
  obtain ⟨trigger, r, found, performed, rfl, rfl⟩ := process_eq_ok closed h
  exact ⟨effect_of_performAll keyed found performed, closed⟩

/-- Processing a trigger is a matter of calls of the store. -/
theorem reachable_of_process (reachable : s.store.Reachable) : s'.store.Reachable := by
  obtain ⟨trigger, r, found, performed, rfl, rfl⟩ := process_eq_ok closed h
  obtain ⟨⟨records, snapshot⟩, draws⟩ := s
  cases closed
  have opened := Store.Reachable.ok (c := .transact .begin) reachable rfl
  have written := opened.performAll performed
  exact .ok (c := .transact .commit) written rfl

end

/-- In every state that a store comes to, processing a trigger has the effects that its outcome
says, and no others. -/
theorem process_effect {s s' : JobState Store} {outcome : TriggerOutcome}
    (reachable : s.store.Reachable) (closed : s.store.snapshot = none)
    (h : process Store.backend cfg id s = .ok outcome s') :
    Effect id s.store.records outcome s'.store.records ∧ s'.store.snapshot = none :=
  effect_of_process closed h reachable.wellKeyed.records

/-- Two sources with a trigger that matches both. -/
def sampleContested : JobState Store :=
  ⟨{ records :=
      { sources := [Sample.source, { Sample.source with id := "source2", priority := 1 }]
        triggers := [sampleTrigger "trigger1"] } }, []⟩

/-- The source of higher priority gets the attribution and the report, and the other one loses. -/
theorem process_effect_sample :
    ∃ s', process Store.backend sampleConfig "trigger1" sampleContested = .ok .attributed s' ∧
      s'.store.records.sources.map (·.status) = [.ignored, .active] ∧
      s'.store.records.eventReports.map (·.sourceId) = ["source2"] ∧
      Effect "trigger1" sampleContested.store.records .attributed s'.store.records := by
  have reachable : sampleContested.store.Reachable := by
    have first := Store.Reachable.ok (c := .addSource Sample.source) .empty rfl
    have second := Store.Reachable.ok
      (c := .addSource { Sample.source with id := "source2", priority := 1 }) first rfl
    exact Store.Reachable.ok (c := .addTrigger (sampleTrigger "trigger1")) second rfl
  have ends : EStateM.run' (do
      let outcome ← process Store.backend sampleConfig "trigger1"
      let s' ← get
      return (outcome, s'.store.records.sources.map (·.status),
        s'.store.records.eventReports.map (·.sourceId))) sampleContested =
        some (.attributed, [.ignored, .active], ["source2"]) := by
    cbv
  cases ran : process Store.backend sampleConfig "trigger1" sampleContested with
  | error e s' =>
    rw [EStateM.run', EStateM.run, bind_eq, ran] at ends
    cases ends
  | ok outcome s' =>
    rw [EStateM.run', EStateM.run, bind_eq, ran] at ends
    obtain ⟨rfl, found⟩ := Prod.mk.inj (Option.some.inj ends)
    obtain ⟨statuses, reports⟩ := Prod.mk.inj found
    exact ⟨s', rfl, statuses, reports, (process_effect reachable rfl ran).1⟩

end Job

end AttributionReporting
