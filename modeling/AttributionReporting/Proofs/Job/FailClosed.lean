import AttributionReporting.Proofs.Aggregate.Decision
import AttributionReporting.Proofs.Job.Plan
import AttributionReporting.Sample
import AttributionReporting.Trigger.Registration
import Mathlib

/-!
# Registrations that cannot be read

A part of a registration that cannot be read is replaced by something else. A clause that never
passes keeps the trigger from being attributed at all, and without data or values the event path and
the aggregate path do nothing. Dedup keys are different: with none of them a report is never a
duplicate, so that a trigger whose dedup keys cannot be read gets every aggregate report that is in
time, contributes something and fits into the budget (`malformed_constructs`).
-/

namespace AttributionReporting

theorem FilterClause.parseLenient_of_error {text : String} {e : ParseError}
    (h : parse text = .error e) : parseLenient text = .malformed := by
  unfold parseLenient
  rw [h]

theorem clausesPass_malformed_left (data : FilterMap) (notFilters : FilterClause) :
    clausesPass data .malformed notFilters = false := rfl

theorem clausesPass_malformed_right (data : FilterMap) (filters : FilterClause) :
    clausesPass data filters .malformed = false :=
  Bool.and_false _

/-! ## Aggregate reports -/

section

variable {source : Source} {trigger : Trigger} {limits : Limits} {draws : Draws}

theorem decideAggregateReport_of_isEmpty
    (h : trigger.aggregatableData.isEmpty = true ∨ trigger.aggregateValues.isEmpty = true) :
    decideAggregateReport source trigger limits draws = (.drop .noAggregatableData, draws) := by
  apply decideAggregateReport_of_obstacle
  unfold aggregateObstacle?
  rw [if_pos h]

/-- When there is a report about a trigger that has no dedup keys. -/
theorem exists_insert_iff_of_no_dedupKeys (h : trigger.aggregateDedupKeys = []) :
    (∃ report dedupKey, (decideAggregateReport source trigger limits draws).1 =
        .insert report dedupKey) ↔
      trigger.time ≤ source.aggregatableReportWindow ∧ contributions source trigger ≠ [] ∧
        source.contributions.toNat + totalValue (contributions source trigger) ≤
          limits.maxContributions.toNat := by
  have key : matchingDedupKey source trigger = none := by
    unfold matchingDedupKey
    rw [h]
    rfl
  have free : aggregateObstacle? source trigger limits = none ↔
      trigger.time ≤ source.aggregatableReportWindow ∧ contributions source trigger ≠ [] ∧
        source.contributions.toNat + totalValue (contributions source trigger) ≤
          limits.maxContributions.toNat := by
    rw [aggregateObstacle?_eq_none_iff, key]
    simp only [Option.any_none, true_and]
  rw [← free]
  constructor
  · rintro ⟨report, dedupKey, inserted⟩
    exact (decideAggregateReport_eq_insert inserted).1
  · intro none
    obtain ⟨delay, left, eq⟩ := decideAggregateReport_of_free none draws
    exact ⟨_, _, congrArg Prod.fst eq⟩

end

namespace Job

variable {cfg : JobConfig} {trigger : Trigger}

/-! ## The paths of the job -/

/-- No trigger is attributed that has clauses which admit no source. -/
theorem process_ne_attributed {s s' : JobState Store} {id : String}
    (found : s.store.records.trigger? id = some trigger)
    (closed : ∀ source : Source,
      clausesPass source.matchingData trigger.filters trigger.notFilters = false) :
    process Store.backend cfg id s ≠ .ok .attributed s' := by
  intro attributed
  cases snapshot : s.store.snapshot with
  | some records =>
    rw [process_of_open cfg id snapshot] at attributed
    cases attributed
  | none =>
    obtain ⟨trigger', r, found', -, value, -⟩ := process_eq_ok snapshot attributed
    obtain rfl : trigger = trigger' := Option.some.inj (found.symm.trans found')
    rcases triggerPlan_cases cfg s.store.records trigger s.draws with ⟨-, skipped, -⟩ |
      ⟨-, ignored, -⟩ | ⟨source, losers, -, -, pass, -⟩
    · rw [skipped] at value
      cases value
    · rw [ignored] at value
      cases value
    · rw [closed source] at pass
      cases pass

/-- Without data the event path makes no call of the store. -/
theorem eventPath_of_no_data {σ : Type} {b : Backend σ} {source : Source} {s : JobState σ}
    (h : trigger.eventData = []) : eventPath b cfg source trigger s = .ok false s := by
  have selected : selectDatum source trigger = none := by
    unfold selectDatum
    rw [h]
    rfl
  unfold eventPath
  rw [selected]
  rfl

/-! ## Parts that cannot be read -/

/-- What becomes of a trigger when a part of its registration cannot be read. Clauses, data and
values fail closed, whatever the source, the store and the rest of the trigger; dedup keys do
not. -/
theorem malformed_constructs (trigger : Trigger) (text : String) :
    (∀ e, FilterClause.parse text = .error e → ∀ cfg id (s s' : JobState Store),
        s.store.records.trigger? id = some (trigger.withFilters text) ∨
            s.store.records.trigger? id = some (trigger.withNotFilters text) →
          process Store.backend cfg id s ≠ .ok .attributed s') ∧
      (∀ e, Trigger.parseEventData text = .error e →
        ∀ (σ : Type) (b : Backend σ) cfg source s,
          eventPath b cfg source (trigger.withEventData text) s = .ok false s) ∧
      (∀ e, Trigger.parseAggregatableData text = .error e → ∀ source limits draws,
        decideAggregateReport source (trigger.withAggregatableData text) limits draws =
          (.drop .noAggregatableData, draws)) ∧
      (∀ e, Trigger.parseAggregateValues text = .error e → ∀ source limits draws,
        decideAggregateReport source (trigger.withAggregateValues text) limits draws =
          (.drop .noAggregatableData, draws)) ∧
      ∀ e, Trigger.parseAggregateDedupKeys text = .error e → ∀ source limits draws,
        (∃ report dedupKey, (decideAggregateReport source (trigger.withAggregateDedupKeys text)
            limits draws).1 = .insert report dedupKey) ↔
          trigger.time ≤ source.aggregatableReportWindow ∧ contributions source trigger ≠ [] ∧
            source.contributions.toNat + totalValue (contributions source trigger) ≤
              limits.maxContributions.toNat := by
  refine ⟨fun e rejected cfg id s s' found => ?_, fun e rejected σ b cfg source s => ?_,
    fun e rejected source limits draws => ?_, fun e rejected source limits draws => ?_,
    fun e rejected source limits draws => ?_⟩
  · have malformed := FilterClause.parseLenient_of_error rejected
    rcases found with found | found
    · refine process_ne_attributed found fun source => ?_
      rw [Trigger.withFilters, malformed]
      exact clausesPass_malformed_left _ _
    · refine process_ne_attributed found fun source => ?_
      rw [Trigger.withNotFilters, malformed]
      exact clausesPass_malformed_right _ _
  · apply eventPath_of_no_data
    rw [Trigger.withEventData, rejected]
    rfl
  · apply decideAggregateReport_of_isEmpty
    rw [Trigger.withAggregatableData, rejected]
    exact .inl rfl
  · apply decideAggregateReport_of_isEmpty
    rw [Trigger.withAggregateValues, rejected]
    exact .inr rfl
  · apply exists_insert_iff_of_no_dedupKeys
    rw [Trigger.withAggregateDedupKeys, rejected]
    rfl

/-- A source with one aggregation key. -/
def sampleAggregatable : Source :=
  { Sample.source with aggregationKeys := .ofList [("campaign", 0x159)] }

/-- A trigger that contributes to this key. -/
def sampleContributing : Trigger :=
  { Sample.trigger with
    aggregatableData := [⟨0x400, ["campaign"], .unconstrained, .unconstrained⟩]
    aggregateValues := .ofList [("campaign", 32768)] }

/-- A text that is no JSON, in every part of a registration: no trigger is attributed and no path
leads to a report, unless the text stands for dedup keys. -/
theorem malformed_constructs_sample :
    (∀ s', process Store.backend ⟨.default, Sample.rates⟩ "trigger1"
        ⟨{ records :=
            { sources := [sampleAggregatable],
              triggers := [sampleContributing.withFilters "nope"] } }, []⟩ ≠
          .ok .attributed s') ∧
      eventPath Store.backend ⟨.default, Sample.rates⟩ sampleAggregatable
        (sampleContributing.withEventData "nope") ⟨{}, []⟩ = .ok false ⟨{}, []⟩ ∧
      decideAggregateReport sampleAggregatable (sampleContributing.withAggregatableData "nope")
        .default [] = (.drop .noAggregatableData, []) ∧
      decideAggregateReport sampleAggregatable (sampleContributing.withAggregateValues "nope")
        .default [] = (.drop .noAggregatableData, []) ∧
      ∃ report dedupKey, (decideAggregateReport sampleAggregatable
        (sampleContributing.withAggregateDedupKeys "nope") .default []).1 =
          .insert report dedupKey := by
  obtain ⟨clauses, events, data, values, dedupKeys⟩ :=
    malformed_constructs sampleContributing "nope"
  refine ⟨fun s' => clauses _ (by cbv) _ _ _ s' (.inl rfl), events _ (by cbv) _ _ _ _ _,
    data _ (by cbv) _ _ _, values _ (by cbv) _ _ _, (dedupKeys _ (by cbv) _ _ _).2 ?_⟩
  exact ⟨by decide, by decide, by decide⟩

/-- A source with a report whose dedup key is 7. -/
def sampleDeduplicated : Source := { sampleAggregatable with aggregateDedupKeys := [7] }

/-- A trigger with the dedup key of an earlier report gets none, and it gets one when the text that
gives the dedup key is cut short. -/
theorem dedupKeys_fail_open :
    (decideAggregateReport sampleDeduplicated
        (sampleContributing.withAggregateDedupKeys "[[7]]") .default []).1 =
        .drop .duplicateDedupKey ∧
      (∃ e, Trigger.parseAggregateDedupKeys "[[7]" = .error e) ∧
        ∃ report, (decideAggregateReport sampleDeduplicated
          (sampleContributing.withAggregateDedupKeys "[[7]") .default []).1 =
            .insert report none := by
  refine ⟨by cbv, ⟨.json, by cbv⟩, ?_⟩
  exact ⟨aggregateReport sampleDeduplicated sampleContributing (Time.minutes 10), by cbv⟩

end Job

end AttributionReporting
