import AttributionReporting.Proofs.Job.Ownership
import AttributionReporting.Proofs.Store.Enrollment

/-!
# What a trigger has to do with other enrollments

The plan for a trigger writes within its enrollment (`within_triggerPlan`). It reads records of
other enrollments only to count what is recorded for the destination of the trigger. So an
enrollment can be left out of the records without any difference to the plan, if none of its sources
lists this destination (`Records.Apart`, `triggerPlan_without`).
-/

namespace AttributionReporting

/-- The enrollment is another one than that of the trigger, and none of its sources lists the
destination of the trigger. -/
structure Records.Apart (r : Records) (enrollmentId : String) (trigger : Trigger) : Prop where
  other : trigger.enrollmentId ≠ enrollmentId
  unlisted : ∀ source ∈ r.sources, source.enrollmentId = enrollmentId →
    trigger.destination ∉ source.allDestinations

theorem filter_filter_of_imp {α : Type} {p q : α → Bool} {l : List α}
    (imp : ∀ a ∈ l, q a = true → p a = true) : (l.filter p).filter q = l.filter q := by
  rw [List.filter_filter]
  refine List.filter_congr fun a mem => ?_
  cases holds : q a with
  | false => rfl
  | true => rw [imp a mem holds]; rfl

theorem countP_filter_of_imp {α : Type} {p q : α → Bool} {l : List α}
    (imp : ∀ a ∈ l, q a = true → p a = true) : (l.filter p).countP q = l.countP q := by
  rw [List.countP_eq_length_filter, filter_filter_of_imp imp, ← List.countP_eq_length_filter]

namespace Job

variable {cfg : JobConfig} {r : Records} {source : Source} {losers : List Source}
  {trigger : Trigger} {draws : Draws} {e : String}

/-! ## What a plan reads -/

section

variable (owned : r.Owned) (apart : r.Apart e trigger)

include apart

theorem matchingSources_without : (r.without e).sources.filter (·.matchesTrigger trigger) =
    r.sources.filter (·.matchesTrigger trigger) := by
  refine filter_filter_of_imp fun s _ wins => ?_
  obtain ⟨-, enrollment, -⟩ := Source.matchesTrigger_iff.1 wins
  rw [enrollment]
  simpa using apart.other

theorem attributionCount_without (publisher : String) (windowStart windowEnd : Int) :
    (r.without e).attributionCount publisher trigger.destination trigger.enrollmentId windowStart
        windowEnd =
      r.attributionCount publisher trigger.destination trigger.enrollmentId windowStart
        windowEnd := by
  refine countP_filter_of_imp fun a _ counts => ?_
  rw [Bool.and_eq_true, beq_iff_eq] at counts
  rw [counts.2]
  simpa using apart.other

include owned

omit apart in
theorem eventReportsOf_without (stored : source ∈ r.sources) (ne : source.enrollmentId ≠ e) :
    (r.without e).eventReportsOf source.id = r.eventReportsOf source.id := by
  refine filter_filter_of_imp fun report mem own => ?_
  obtain ⟨s, hs, same, issues, -⟩ := owned.of_event mem
  obtain rfl : s = source :=
    List.inj_on_of_nodup_map owned.keyed.sources hs stored (same.trans (beq_iff_eq.1 own))
  rw [← issues.enrollment]
  simpa using ne

theorem eventReportCount_without : (r.without e).eventReportCount trigger.destination =
    r.eventReportCount trigger.destination := by
  refine countP_filter_of_imp fun report mem counts => bne_iff_ne.2 fun mine => ?_
  obtain ⟨s, stored, -, issues, lists⟩ := owned.of_event mem
  rw [Bool.and_eq_true, List.contains_iff_mem, lists] at counts
  exact apart.unlisted s stored (issues.enrollment.trans mine) counts.2

theorem aggregateReportCount_without : (r.without e).aggregateReportCount trigger.destination =
    r.aggregateReportCount trigger.destination := by
  refine countP_filter_of_imp fun report mem counts => bne_iff_ne.2 fun mine => ?_
  obtain ⟨s, stored, -, issues, lists⟩ := owned.of_aggregate mem
  rw [Bool.and_eq_true, beq_iff_eq, beq_iff_eq] at counts
  exact apart.unlisted s stored (issues.enrollment.trans mine) (counts.2 ▸ lists)

theorem enrollmentCount_without (publisher excluded : String) (windowStart windowEnd : Int) :
    (r.without e).enrollmentCount publisher trigger.destination excluded windowStart windowEnd =
      r.enrollmentCount publisher trigger.destination excluded windowStart windowEnd := by
  unfold Records.enrollmentCount
  dsimp only
  rw [Records.without, filter_filter_of_imp]
  refine fun a mem counts => bne_iff_ne.2 fun mine => ?_
  obtain ⟨s, stored, recorded⟩ := owned.attributions a mem
  simp only [Attribution.isBetween, Bool.and_eq_true, beq_iff_eq] at counts
  exact apart.unlisted s stored (recorded.enrollment.trans mine)
    (counts.1.1.1.2 ▸ recorded.listed)

theorem isBlocked_without : isBlocked cfg (r.without e) source trigger =
    isBlocked cfg r source trigger := by
  unfold isBlocked
  dsimp only
  rw [attributionCount_without apart, enrollmentCount_without owned apart]

theorem eventWrites_without (stored : source ∈ r.sources) (ne : source.enrollmentId ≠ e) :
    eventWrites cfg (r.without e) source trigger = eventWrites cfg r source trigger := by
  have reports := eventReportsOf_without owned stored ne
  unfold Records.eventReportsOf at reports
  unfold eventWrites
  rw [eventReportCount_without owned apart, reports]

theorem aggregateWrites_without :
    aggregateWrites cfg (r.without e) source trigger draws =
      aggregateWrites cfg r source trigger draws := by
  unfold aggregateWrites
  rw [aggregateReportCount_without owned apart]

/-- An enrollment that is apart from a trigger makes no difference to what becomes of it. -/
theorem triggerPlan_without :
    triggerPlan cfg (r.without e) trigger draws = triggerPlan cfg r trigger draws := by
  unfold triggerPlan pendingPlan
  rw [matchingSources_without apart]
  split_ifs
  · rfl
  · rcases won : selectSource (r.sources.filter (·.matchesTrigger trigger)) trigger with
      _ | ⟨source, losers⟩
    · rfl
    · obtain ⟨stored, wins⟩ := of_selectSource won
      have ne : source.enrollmentId ≠ e :=
        (Source.matchesTrigger_iff.1 wins).2.1 ▸ apart.other
      dsimp only
      rw [isBlocked_without owned apart]
      unfold creditPlan
      rw [eventWrites_without owned apart stored ne, aggregateWrites_without owned apart]

end

/-! ## What a plan writes -/

section

variable (owned : r.Owned)

include owned

theorem id_notMem_sources (stored : source ∈ r.sources) :
    source.id ∉ (r.without source.enrollmentId).sources.map Source.id := by
  refine notMem_map_filter_iff.2 fun s hs same => ?_
  rw [List.inj_on_of_nodup_map owned.keyed.sources hs stored same]
  simp

theorem id_notMem_triggers (stored : trigger ∈ r.triggers) :
    trigger.id ∉ (r.without trigger.enrollmentId).triggers.map Trigger.id := by
  refine notMem_map_filter_iff.2 fun t ht same => ?_
  rw [List.inj_on_of_nodup_map owned.keyed.triggers ht stored same]
  simp

/-- What two sources issue under the same id, they issue for the same enrollment. -/
theorem enrollment_of_issues {s : Source} {enrollmentId enrollmentId' id : String}
    (stored : source ∈ r.sources) (hs : s ∈ r.sources) (issues : source.Issues enrollmentId id)
    (issues' : s.Issues enrollmentId' id) : enrollmentId' = enrollmentId := by
  obtain ⟨rest, eq⟩ := issues.label
  obtain ⟨rest', eq'⟩ := issues'.label
  obtain ⟨same, -⟩ := colonless_append_inj (owned.each.each source stored).colonless
    (owned.each.each s hs).colonless (eq.symm.trans eq')
  obtain rfl := List.inj_on_of_nodup_map owned.keyed.sources stored hs same
  exact issues'.enrollment.symm.trans issues.enrollment

theorem id_notMem_eventReports {enrollmentId id : String} (stored : source ∈ r.sources)
    (issues : source.Issues enrollmentId id) :
    id ∉ (r.without enrollmentId).eventReports.map EventReport.id := by
  refine notMem_map_filter_iff.2 fun report mem same => ?_
  obtain ⟨s, hs, -, issues', -⟩ := owned.of_event mem
  subst same
  rw [enrollment_of_issues owned stored hs issues issues']
  exact bne_self_eq_false _

theorem id_notMem_aggregateReports {enrollmentId id : String} (stored : source ∈ r.sources)
    (issues : source.Issues enrollmentId id) :
    id ∉ (r.without enrollmentId).aggregateReports.map AggregateReport.id := by
  refine notMem_map_filter_iff.2 fun report mem same => ?_
  obtain ⟨s, hs, -, issues', -⟩ := owned.of_aggregate mem
  subst same
  rw [enrollment_of_issues owned stored hs issues issues']
  exact bne_self_eq_false _

theorem within_eventWrites (stored : source ∈ r.sources) {w : Write}
    (mem : w ∈ (eventWrites cfg r source trigger).getD []) :
    w.Within source.enrollmentId (r.without source.enrollmentId) := by
  rcases found : eventWrites cfg r source trigger with _ | writes
  · rw [found] at mem
    cases mem
  · have form := of_mem_eventWrites mem
    rw [found, Option.getD_some] at mem
    obtain ⟨datum, selected, -, planned⟩ := eventWrites_eq_some found
    rcases form with ⟨_, rfl⟩ | ⟨id, rfl⟩ | ⟨report, rfl⟩ | ⟨_, rfl⟩
    · exact id_notMem_sources owned stored
    · obtain ⟨report, deleted, rfl⟩ := List.mem_map.1 ((delete_mem_planEvent_iff planned).1 mem)
      obtain ⟨before, own⟩ := own_delete_eventExchange deleted
      obtain ⟨s, hs, same, issues, -⟩ := owned.of_event before
      obtain rfl : s = source :=
        List.inj_on_of_nodup_map owned.keyed.sources hs stored (same.trans own)
      rw [issues.enrollment]
      exact id_notMem_eventReports owned stored issues
    · have credit : EventCredit cfg r source trigger
          (creditedSource cfg r source trigger []) _ _ :=
        eventCredit_of_planEvent selected found planned
      have issues := credit.issues ((insert_mem_planEvent_iff planned).1 mem)
      rw [issues.enrollment]
      exact ⟨rfl, id_notMem_eventReports owned stored issues⟩
    · exact id_notMem_sources owned stored

theorem within_aggregateWrites (stored : source ∈ r.sources) {w : Write}
    (mem : w ∈ (aggregateWrites cfg r source trigger draws).1.getD []) :
    w.Within source.enrollmentId (r.without source.enrollmentId) := by
  rcases of_mem_aggregateWrites mem with ⟨_, rfl⟩ | ⟨_, rfl⟩ | ⟨delay, rfl⟩
  · exact id_notMem_sources owned stored
  · exact id_notMem_sources owned stored
  · exact ⟨rfl, id_notMem_aggregateReports owned stored
      (issues_aggregateReport source trigger delay)⟩

theorem within_planAttribution (stored : trigger ∈ r.triggers)
    (won : selectSource (r.sources.filter (·.matchesTrigger trigger)) trigger =
      some (source, losers)) {w : Write} (mem : w ∈ planAttribution source losers trigger) :
    w.Within trigger.enrollmentId (r.without trigger.enrollmentId) := by
  rcases of_mem_planAttribution mem with rfl | rfl | rfl
  · intro id lost
    obtain ⟨loser, hl, rfl⟩ := List.mem_map.1 lost
    obtain ⟨hs, lists⟩ := List.mem_filter.1
      ((selectSource_perm won).subset (List.mem_cons_of_mem source hl))
    rw [← (Source.matchesTrigger_iff.1 lists).2.1]
    exact id_notMem_sources owned hs
  · exact rfl
  · intro id own
    rw [List.mem_singleton.1 own]
    exact id_notMem_triggers owned stored

/-- A trigger writes within its enrollment. -/
theorem within_triggerPlan (stored : trigger ∈ r.triggers) {w : Write}
    (mem : w ∈ (triggerPlan cfg r trigger draws).writes) :
    w.Within trigger.enrollmentId (r.without trigger.enrollmentId) := by
  rcases triggerPlan_cases cfg r trigger draws with ⟨-, -, writes⟩ | ⟨-, -, writes⟩ |
    ⟨source, losers, -, won, -, -, -, -, -, writes⟩
  · rw [writes] at mem
    cases mem
  · rw [writes, List.mem_singleton] at mem
    subst mem
    intro id own
    rw [List.mem_singleton.1 own]
    exact id_notMem_triggers owned stored
  · obtain ⟨winner_mem, wins⟩ := of_selectSource won
    have enrollment := (Source.matchesTrigger_iff.1 wins).2.1
    rw [writes, List.mem_append, List.mem_append] at mem
    rcases mem with event | aggregate | closing
    · exact enrollment ▸ within_eventWrites owned winner_mem event
    · exact enrollment ▸ within_aggregateWrites owned winner_mem aggregate
    · exact within_planAttribution owned stored won closing

end

end Job

end AttributionReporting
