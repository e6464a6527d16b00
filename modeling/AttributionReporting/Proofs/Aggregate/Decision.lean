import AttributionReporting.Aggregate.Decision
import Mathlib.Tactic.SplitIfs

/-!
# What a decision on an aggregate report says

A report keeps to the budget of its source and does not repeat a dedup key of it
(`aggregateObstacle?_eq_none`). Whether there is one does not depend on the numbers of the
generator, and neither does anything in it but the time for which it is scheduled.
-/

namespace AttributionReporting

variable {source : Source} {trigger : Trigger} {limits : Limits} {draws : Draws}

/-- When nothing stands in the way of an aggregate report. -/
theorem aggregateObstacle?_eq_none (h : aggregateObstacle? source trigger limits = none) :
    trigger.time ≤ source.aggregatableReportWindow ∧
      (matchingDedupKey source trigger).any source.aggregateDedupKeys.contains = false ∧
        contributions source trigger ≠ [] ∧
          source.contributions.toNat + totalValue (contributions source trigger) ≤
            limits.maxContributions.toNat := by
  unfold aggregateObstacle? at h
  split_ifs at h with _ late duplicate nothing excess
  rw [Bool.not_eq_true] at duplicate
  exact ⟨Int.not_lt.1 late, duplicate, fun none => nothing (List.isEmpty_iff.2 none),
    Nat.not_lt.1 excess⟩

/-- A trigger contributes something only with data and with values. -/
theorem isEmpty_of_contributions_ne_nil (h : contributions source trigger ≠ []) :
    trigger.aggregatableData.isEmpty = false ∧ trigger.aggregateValues.isEmpty = false := by
  unfold contributions namedBuckets passingData at h
  refine ⟨Bool.eq_false_iff.2 fun empty => h ?_, Bool.eq_false_iff.2 fun empty => h ?_⟩
  · rw [List.isEmpty_iff.1 empty]
    rfl
  · have nothing (name : String) : trigger.aggregateValues.get? name = none := by
      rw [StringMap.get?, List.isEmpty_iff.1 empty, List.lookup_nil]
    rw [List.filterMap_eq_nil_iff]
    intro named _
    simp only [nothing]

theorem aggregateObstacle?_eq_none_iff :
    aggregateObstacle? source trigger limits = none ↔
      trigger.time ≤ source.aggregatableReportWindow ∧
        (matchingDedupKey source trigger).any source.aggregateDedupKeys.contains = false ∧
          contributions source trigger ≠ [] ∧
            source.contributions.toNat + totalValue (contributions source trigger) ≤
              limits.maxContributions.toNat := by
  refine ⟨aggregateObstacle?_eq_none, fun ⟨inTime, new, something, fits⟩ => ?_⟩
  obtain ⟨data, values⟩ := isEmpty_of_contributions_ne_nil something
  unfold aggregateObstacle?
  rw [data, values, new, if_neg (by simp), if_neg (Int.not_lt.2 inTime), if_neg Bool.false_ne_true,
    if_neg (by rwa [List.isEmpty_iff]), if_neg (Nat.not_lt.2 fits)]

theorem decideAggregateReport_of_obstacle {reason : AggregateDropReason}
    (h : aggregateObstacle? source trigger limits = some reason) (draws : Draws) :
    decideAggregateReport source trigger limits draws = (.drop reason, draws) := by
  unfold decideAggregateReport
  rw [h]

theorem decideAggregateReport_of_free (h : aggregateObstacle? source trigger limits = none)
    (draws : Draws) :
    ∃ delay left, decideAggregateReport source trigger limits draws =
      (.insert (aggregateReport source trigger delay) (matchingDedupKey source trigger), left) := by
  unfold decideAggregateReport
  rw [h]
  exact ⟨_, _, rfl⟩

theorem decideAggregateReport_eq_insert {report : AggregateReport} {dedupKey : Option UInt64}
    (h : (decideAggregateReport source trigger limits draws).1 = .insert report dedupKey) :
    aggregateObstacle? source trigger limits = none ∧
      dedupKey = matchingDedupKey source trigger ∧
        ∃ delay, report = aggregateReport source trigger delay := by
  cases obstacle : aggregateObstacle? source trigger limits with
  | some reason =>
    rw [decideAggregateReport_of_obstacle obstacle] at h
    cases h
  | none =>
    obtain ⟨delay, left, eq⟩ := decideAggregateReport_of_free obstacle draws
    rw [eq] at h
    cases h
    exact ⟨rfl, rfl, delay, rfl⟩

end AttributionReporting
