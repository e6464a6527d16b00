import AttributionReporting.Flexible.Summary
import AttributionReporting.Proofs.Flexible.Rules
import Mathlib.Algebra.GroupWithZero.Nat
import Mathlib.Data.List.Basic

/-!
# How totals grow

A total depends on which triggers it counts and not on their order (`total_perm`), and it grows with
every further trigger (`total_le_total_append`), so that a threshold once reached stays reached.
When a trigger lets as many thresholds be reached as before, it lets the same ones be reached
(`le_of_crossedCount_eq`).
-/

namespace AttributionReporting

theorem cappedTotal_eq_min_sum (values : List UInt64) :
    cappedTotal values = min (values.map UInt64.toNat).sum maxUInt64.toNat := by
  unfold cappedTotal
  congr 1
  induction values with
  | nil => rfl
  | cons value values ih => rw [List.foldr_cons, ih, List.map_cons, List.sum_cons]

namespace TriggerSpec

variable {rules : TriggerSpec} {eventTime : Int} {data : UInt64}

theorem total_perm {triggers triggers' : List AttributedTrigger} (h : triggers.Perm triggers') :
    rules.total eventTime data triggers = rules.total eventTime data triggers' := by
  unfold total
  rw [cappedTotal_eq_min_sum, cappedTotal_eq_min_sum]
  rw [(((h.filter _).map rules.operator.contribution).map UInt64.toNat).sum_nat]

theorem total_le_total_append (rules : TriggerSpec) (eventTime : Int) (data : UInt64)
    (above rest : List AttributedTrigger) :
    rules.total eventTime data above ≤ rules.total eventTime data (above ++ rest) := by
  unfold total
  rw [cappedTotal_eq_min_sum, cappedTotal_eq_min_sum, List.filter_append, List.map_append,
    List.map_append, List.sum_append]
  omega

/-- A trigger with other data, or outside every window, adds nothing. -/
theorem total_append_of_not_counted {t : AttributedTrigger} (above : List AttributedTrigger)
    (h : t.data ≠ data ∨ rules.windowEnd? eventTime t = none) :
    rules.total eventTime data (above ++ [t]) = rules.total eventTime data above := by
  have out : (t.data == data && (rules.windowEnd? eventTime t).isSome) = false := by
    rcases h with ne | outside
    · simp [ne]
    · simp [outside]
  unfold total
  rw [List.filter_append, List.filter_singleton, out]
  simp

end TriggerSpec

/-! ## Thresholds reached -/

/-- A larger total that has reached as many thresholds has reached no other. -/
theorem le_of_crossedCount_eq {thresholds : List UInt64} {before after : Nat} (le : before ≤ after)
    (h : crossedCount thresholds before = crossedCount thresholds after) {threshold : UInt64}
    (mem : threshold ∈ thresholds) (reached : threshold.toNat ≤ after) :
    threshold.toNat ≤ before := by
  unfold crossedCount at h
  rw [List.countP_eq_length_filter, List.countP_eq_length_filter] at h
  have sub : (thresholds.filter fun t => decide (t.toNat ≤ before)).Sublist
      (thresholds.filter fun t => decide (t.toNat ≤ after)) := by
    apply List.monotone_filter_right thresholds
    intro t ht
    simp only [decide_eq_true_eq] at ht ⊢
    omega
  have mem_after : threshold ∈ thresholds.filter fun t => decide (t.toNat ≤ after) :=
    List.mem_filter.2 ⟨mem, by simpa using reached⟩
  rw [← sub.eq_of_length h] at mem_after
  simpa using (List.mem_filter.1 mem_after).2

namespace ReportSpec

variable {spec : ReportSpec} {eventTime : Int} {data : UInt64}

theorem summaryValue_of_some {rules : TriggerSpec}
    (h : spec.config.triggerSpecFor? data = some rules) :
    spec.summaryValue eventTime data = rules.total eventTime data spec.history := by
  simp [summaryValue, h]

theorem summaryValue_of_none (h : spec.config.triggerSpecFor? data = none) :
    spec.summaryValue eventTime data = 0 := by
  simp [summaryValue, h]

/-- One more trigger in the history makes no total smaller. -/
theorem summaryValue_le_record (spec : ReportSpec) (eventTime : Int) (data : UInt64)
    (t : AttributedTrigger) :
    spec.summaryValue eventTime data ≤ (spec.record t).summaryValue eventTime data := by
  rcases find : spec.config.triggerSpecFor? data with _ | rules
  · rw [summaryValue_of_none find]
    exact Nat.zero_le _
  · have found : (spec.record t).config.triggerSpecFor? data = some rules := find
    rw [summaryValue_of_some find, summaryValue_of_some found]
    exact rules.total_le_total_append eventTime data _ _

/-- A trigger leaves the totals of other trigger data alone. -/
theorem summaryValue_record_of_ne {t : AttributedTrigger} (h : t.data ≠ data) :
    (spec.record t).summaryValue eventTime data = spec.summaryValue eventTime data := by
  rcases find : spec.config.triggerSpecFor? data with _ | rules
  · have missing : (spec.record t).config.triggerSpecFor? data = none := find
    rw [summaryValue_of_none find, summaryValue_of_none missing]
  · have found : (spec.record t).config.triggerSpecFor? data = some rules := find
    rw [summaryValue_of_some find, summaryValue_of_some found]
    exact TriggerSpec.total_append_of_not_counted _ (.inl h)

end ReportSpec

end AttributionReporting
