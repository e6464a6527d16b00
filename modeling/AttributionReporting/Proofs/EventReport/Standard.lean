import AttributionReporting.EventReport.Standard
import Mathlib.Tactic.SplitIfs

/-!
# When a plain source gets a report

`decideStandardReport_eq_insert` says what stands behind a new report of a plain source: either
there was room for one more, or it takes the place of a pending report with a lower priority.
-/

namespace AttributionReporting

namespace EventReport

theorem mem_of_firstToYield? {reports : List EventReport} {r : EventReport}
    (h : firstToYield? reports = some r) : r ∈ reports := by
  induction reports generalizing r with
  | nil => cases h
  | cons first rest ih =>
    unfold firstToYield? at h
    split at h
    · cases h
      exact List.mem_cons_self
    · next s found =>
      split_ifs at h
      · cases h
        exact List.mem_cons_of_mem first (ih found)
      · cases h
        exact List.mem_cons_self

theorem firstToYield?_eq_none_iff {reports : List EventReport} :
    firstToYield? reports = none ↔ reports = [] := by
  cases reports with
  | nil => exact iff_of_true rfl rfl
  | cons first rest =>
    refine iff_of_false ?_ (List.cons_ne_nil first rest)
    unfold firstToYield?
    split
    · exact Option.some_ne_none _
    · split_ifs <;> exact not_false

/-- No report is given up before the one chosen. -/
theorem not_yieldsBefore_of_firstToYield? {reports : List EventReport} {r : EventReport}
    (h : firstToYield? reports = some r) : ∀ s ∈ reports, ¬ s.yieldsBefore r = true := by
  induction reports generalizing r with
  | nil => cases h
  | cons first rest ih =>
    unfold firstToYield? at h
    split at h
    · next empty =>
      cases h
      rw [firstToYield?_eq_none_iff.1 empty]
      simp [yieldsBefore]
    · next lowest found =>
      have least := ih found
      unfold yieldsBefore at h least ⊢
      simp only [decide_eq_true_eq] at h least ⊢
      split_ifs at h with yields
      · cases h
        exact List.forall_mem_cons.2 ⟨by omega, least⟩
      · cases h
        refine List.forall_mem_cons.2 ⟨by omega, fun s hs => ?_⟩
        have := least s hs
        omega

end EventReport

theorem decideStandardReport_eq_insert {source : Source} {trigger : Trigger}
    {datum : EventTriggerDatum} {existing : List EventReport} {limits : Limits}
    {triggerRate : Float}
    {report : EventReport} {replaces : Option EventReport}
    (h : decideStandardReport source trigger datum existing limits triggerRate =
      .insert report replaces) :
    ∃ reportTime,
      standardReportTime source trigger.time trigger.destinationType limits = some reportTime ∧
        datum.dedupKey.any source.eventDedupKeys.contains = false ∧
          report = EventReport.ofAttributed source (trigger.attributedWith datum) reportTime
            triggerRate trigger.debugKey ∧
          ((existing.countP (·.isStanding) <
              (limits.maxEventReports source trigger.destinationType).toNat ∧ replaces = none) ∨
            ∃ lowest ∈ existing, replaces = some lowest ∧ lowest.status = .pending ∧
              lowest.reportTime = reportTime ∧
                lowest.credited.priority < report.credited.priority) := by
  unfold decideStandardReport at h
  split at h
  · cases h
  · next reportTime due =>
    dsimp only at h
    split_ifs at h with duplicate room
    · cases h
      rw [Bool.not_eq_true] at duplicate
      exact ⟨reportTime, due, duplicate, rfl, .inl ⟨room, rfl⟩⟩
    · split at h
      · cases h
      · next lowest found =>
        split_ifs at h with lower
        cases h
        rw [Bool.not_eq_true] at duplicate
        obtain ⟨mem, rival⟩ := List.mem_filter.1 (EventReport.mem_of_firstToYield? found)
        rw [Bool.and_eq_true, beq_iff_eq, beq_iff_eq] at rival
        exact ⟨reportTime, due, duplicate, rfl,
          .inr ⟨lowest, mem, rfl, rival.1, rival.2, lower⟩⟩

end AttributionReporting
