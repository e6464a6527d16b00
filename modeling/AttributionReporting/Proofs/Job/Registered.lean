import AttributionReporting.Proofs.Flexible.Run
import AttributionReporting.Proofs.Job.Plan

/-!
# What a registration fixes

Attribution changes no more of a source than its status, its dedup keys, the contributions it has
used up and the history in its report spec. So every source stays as it was registered up to these
(`Source.asRegistered`), and so do the rules of flexible sources.
-/

namespace AttributionReporting

/-- The same rules without any trigger. -/
def ReportSpec.asRegistered (spec : ReportSpec) : ReportSpec := { spec with history := [] }

/-- A source as if nothing had been attributed to it. -/
def Source.asRegistered (s : Source) : Source :=
  { s with
    status := .active
    contributions := 0
    eventDedupKeys := []
    aggregateDedupKeys := []
    reportSpec := s.reportSpec.map ReportSpec.asRegistered }

namespace Write

/-- A write that gives a source no other rules than the registered ones. -/
def KeepsRules (registered : List Source) : Write → Prop
  | setReportSpec id spec =>
    ∀ s ∈ registered, s.id = id → s.reportSpec = spec.map ReportSpec.asRegistered
  | _ => True

variable {registered l l' : List Source}

theorem map_asRegistered_of_onSources {w : Write} (keeps : w.KeepsRules registered)
    (same : l.map Source.asRegistered = registered) (h : w.onSources l = some l') :
    l'.map Source.asRegistered = registered := by
  subst same
  cases w with
  | insertEventReport | deleteEventReport | insertAggregateReport | setTriggerStatus |
    insertAttribution =>
    cases h
    rfl
  | setEventDedupKeys | setAggregateDedupKeys | setContributions =>
    exact map_of_modifyKey? h fun _ _ _ => rfl
  | setReportSpec id spec =>
    apply map_of_modifyKey? h
    intro s hs found
    have rules : s.reportSpec.map ReportSpec.asRegistered = spec.map ReportSpec.asRegistered :=
      keeps s.asRegistered (List.mem_map_of_mem hs) found
    show { s.asRegistered with reportSpec := spec.map ReportSpec.asRegistered } = s.asRegistered
    rw [← rules]
    rfl
  | setSourceStatus ids status =>
    refine foldlM_invariant (fun sources => sources.map Source.asRegistered =
      l.map Source.asRegistered) (fun id _ before after inv step => ?_) rfl h
    exact (map_of_modifyKey? step fun _ _ _ => rfl).trans inv

end Write

theorem asRegistered_of_performAll {writes : List Write} {r r' : Records}
    (h : performAll writes r = .ok () r')
    (keeps : ∀ w ∈ writes, w.KeepsRules (r.sources.map Source.asRegistered)) :
    r'.sources.map Source.asRegistered = r.sources.map Source.asRegistered := by
  obtain ⟨changed, -⟩ := performAll_eq_ok_iff.1 h
  refine foldlM_invariant (fun sources => sources.map Source.asRegistered =
    r.sources.map Source.asRegistered) (fun w hw before after inv step => ?_) rfl changed
  exact Write.map_asRegistered_of_onSources (keeps w hw) inv step

namespace Job

variable {cfg : JobConfig} {r : Records} {source : Source} {trigger : Trigger}

theorem asRegistered_eq_of_id_eq (ids : (r.sources.map Source.id).Nodup) (mem : source ∈ r.sources)
    {s : Source} (hs : s ∈ r.sources.map Source.asRegistered) (same : s.id = source.id) :
    s = source.asRegistered := by
  obtain ⟨s', hs', rfl⟩ := List.mem_map.1 hs
  rw [List.inj_on_of_nodup_map ids hs' mem same]

theorem keepsRules_eventWrites (ids : (r.sources.map Source.id).Nodup) (mem : source ∈ r.sources)
    {w : Write} (h : w ∈ (eventWrites cfg r source trigger).getD []) :
    w.KeepsRules (r.sources.map Source.asRegistered) := by
  rcases found : eventWrites cfg r source trigger with _ | writes
  · rw [found] at h
    cases h
  · rw [found, Option.getD_some] at h
    obtain ⟨datum, -, -, planned⟩ := eventWrites_eq_some found
    have rules {spec next : ReportSpec} {t : AttributedTrigger}
        (has : source.reportSpec = some spec) (grown : next = spec.record t) :
        (Write.setReportSpec source.id (some next)).KeepsRules
          (r.sources.map Source.asRegistered) := by
      intro s hs same
      rw [asRegistered_eq_of_id_eq ids mem hs same, Source.asRegistered, has, grown]
      rfl
    rcases planEvent_cases planned with ⟨spec, next, has, outcome, rfl⟩ |
      ⟨spec, next, insert, delete, has, outcome, rfl⟩ | ⟨_, _, -, -, rfl⟩
    · rw [List.mem_singleton.1 h]
      exact rules has (ReportSpec.credit_eq_historyOnly_iff.1 outcome).1
    · simp only [List.mem_append, List.mem_map, List.mem_singleton] at h
      rcases h with (⟨_, -, rfl⟩ | ⟨_, -, rfl⟩) | rfl
      · trivial
      · trivial
      · exact rules has (ReportSpec.credit_eq_reports outcome).1
    · simp only [List.mem_append, Option.mem_toList, Option.map_eq_some_iff,
        List.mem_singleton] at h
      rcases h with (⟨_, -, rfl⟩ | ⟨_, -, rfl⟩) | rfl <;> trivial

theorem keepsRules_triggerPlan (cfg : JobConfig) (trigger : Trigger) (draws : Draws)
    (ids : (r.sources.map Source.id).Nodup) {w : Write}
    (h : w ∈ (triggerPlan cfg r trigger draws).writes) :
    w.KeepsRules (r.sources.map Source.asRegistered) := by
  rcases triggerPlan_cases cfg r trigger draws with ⟨-, -, eq⟩ | ⟨-, -, eq⟩ |
    ⟨source, losers, -, won, -, -, -, -, -, eq⟩
  · rw [eq] at h
    cases h
  · rw [eq, List.mem_singleton] at h
    rw [h]
    trivial
  · rw [eq, List.mem_append, List.mem_append] at h
    rcases h with event | aggregate | closing
    · exact keepsRules_eventWrites ids (of_selectSource won).1 event
    · rcases of_mem_aggregateWrites aggregate with ⟨_, rfl⟩ | ⟨_, rfl⟩ | ⟨_, rfl⟩ <;> trivial
    · rcases of_mem_planAttribution closing with rfl | rfl | rfl <;> trivial

end Job

end AttributionReporting
