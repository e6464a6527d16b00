import AttributionReporting.Proofs.Job.EventPath
import AttributionReporting.Proofs.Job.Registered
import AttributionReporting.Proofs.Job.Run
import AttributionReporting.Sample

/-!
# Every source stays within its capacity

However registrations, deliveries and the processing of triggers follow one another, no source ever
has more standing event reports than it may have (`standing_le_capacity`). For a flexible source
that is what its rules say, and for a plain one the larger of the limits for the two types of
destination. The event path puts a report in only where there is room or in the place of another one
(`standing_eventExchange_le`), and it does not touch the reports of other sources.
-/

namespace AttributionReporting

/-- The most event reports that a source may have standing. -/
def Source.capacity (limits : Limits) (s : Source) : Nat :=
  match s.reportSpec with
  | some spec => spec.maxReports
  | none => max (limits.maxEventReports s .app).toNat (limits.maxEventReports s .web).toNat

theorem Source.capacity_asRegistered (limits : Limits) (s : Source) :
    s.asRegistered.capacity limits = s.capacity limits := by
  unfold capacity asRegistered
  cases s.reportSpec <;> rfl

theorem Limits.maxEventReports_le_max (limits : Limits) (s : Source) (type : DestinationType) :
    (limits.maxEventReports s type).toNat ≤
      max (limits.maxEventReports s .app).toNat (limits.maxEventReports s .web).toNat := by
  cases type with
  | app => exact Nat.le_max_left _ _
  | web => exact Nat.le_max_right _ _

/-- The standing event reports of a source. -/
def Records.standing (r : Records) (sourceId : String) : List EventReport :=
  (r.eventReports.filter (·.sourceId == sourceId)).filter (·.isStanding)

namespace Job

variable {cfg : JobConfig} {source : Source} {trigger : Trigger} {datum : EventTriggerDatum}
  {existing : List EventReport}

/-! ## One exchange -/

/-- Taking the place of a standing report does not change how many there are. -/
theorem standing_replace_le {lowest report : EventReport} (mem : lowest ∈ existing)
    (stands : lowest.isStanding = true) :
    ((remainingReports [lowest] existing ++ [report]).filter (·.isStanding)).length ≤
      (existing.filter (·.isStanding)).length := by
  have fewer : ((remainingReports [lowest] existing).filter (·.isStanding)).length <
      (existing.filter (·.isStanding)).length := by
    rw [filter_remainingReports, remainingReports, List.length_filter_lt_length_iff_exists]
    exact ⟨lowest, List.mem_filter.2 ⟨mem, stands⟩, by simp⟩
  have one : ([report].filter (·.isStanding)).length ≤ 1 := List.length_filter_le _ _
  rw [List.filter_append, List.length_append]
  omega

/-- The event path does not take the standing reports of a source past its capacity. -/
theorem standing_eventExchange_le (ids : (existing.map EventReport.id).Nodup)
    (room : (existing.filter (·.isStanding)).length ≤ source.capacity cfg.limits) :
    ((remainingReports (eventExchange cfg source trigger datum existing).2 existing ++
      (eventExchange cfg source trigger datum existing).1).filter (·.isStanding)).length ≤
        source.capacity cfg.limits := by
  have same : ((remainingReports [] existing ++ ([] : List EventReport)).filter
      (·.isStanding)).length ≤ source.capacity cfg.limits := by
    rwa [remainingReports_nil, List.append_nil]
  unfold eventExchange
  split
  · next spec rules =>
    split
    · next next insert delete outcome =>
      obtain ⟨-, -, eq⟩ := ReportSpec.credit_eq_reports outcome
      unfold Source.capacity at room ⊢
      rw [rules] at room ⊢
      exact standing_exchange_le ids (fun r hr => (ReportSpec.desired_pending hr).1) eq room
    · exact same
    · exact same
  · next rules =>
    split
    · next report replaces decision =>
      obtain ⟨_, -, -, -, ⟨free, rfl⟩ | ⟨lowest, mem, rfl, pending, -⟩⟩ :=
        decideStandardReport_eq_insert decision
      · have bound := cfg.limits.maxEventReports_le_max source trigger.destinationType
        have one : ([report].filter (·.isStanding)).length ≤ 1 := List.length_filter_le _ _
        unfold Source.capacity
        rw [rules]
        rw [List.countP_eq_length_filter] at free
        simp only [Option.toList_none, remainingReports_nil, List.filter_append, List.length_append]
        omega
      · have stands : lowest.isStanding = true := by
          unfold EventReport.isStanding
          rw [pending]
          rfl
        exact (standing_replace_le mem stands).trans room
    · exact same

/-! ## The invariant -/

/-- Ids are distinct, reports belong to stored sources, and each source is within its capacity. -/
structure WithinCapacity (limits : Limits) (r : Records) : Prop where
  sourceIds : (r.sources.map Source.id).Nodup
  reportIds : (r.eventReports.map EventReport.id).Nodup
  known : ∀ report ∈ r.eventReports, report.sourceId ∈ r.sources.map Source.id
  room : ∀ source ∈ r.sources, (r.standing source.id).length ≤ source.capacity limits

namespace WithinCapacity

variable {limits : Limits} {r r' : Records}

theorem of_no_reports (none : r.eventReports = []) (ids : (r.sources.map Source.id).Nodup) :
    WithinCapacity limits r where
  sourceIds := ids
  reportIds := by simp [none]
  known := by simp [none]
  room := by simp [Records.standing, none]

/-- The capacity of a source is part of what its registration fixes. -/
theorem of_asRegistered (h : WithinCapacity limits r)
    (sources : r'.sources.map Source.asRegistered = r.sources.map Source.asRegistered)
    (reports : r'.eventReports = r.eventReports) : WithinCapacity limits r' := by
  have ids : r'.sources.map Source.id = r.sources.map Source.id := by
    have := congrArg (List.map Source.id) sources
    rwa [List.map_map, List.map_map] at this
  refine ⟨ids ▸ h.sourceIds, reports ▸ h.reportIds, ids ▸ reports ▸ h.known, fun s' hs' => ?_⟩
  have registered : s'.asRegistered ∈ r.sources.map Source.asRegistered :=
    sources ▸ List.mem_map_of_mem hs'
  obtain ⟨s, hs, eq⟩ := List.mem_map.1 registered
  have id_eq : s.asRegistered.id = s'.asRegistered.id := congrArg Source.id eq
  change s.id = s'.id at id_eq
  have room := h.room s hs
  rw [← s.capacity_asRegistered, eq, s'.capacity_asRegistered, id_eq] at room
  unfold Records.standing at room ⊢
  rwa [reports]

theorem addSource (h : WithinCapacity limits r) (fresh : source.id ∉ r.sources.map Source.id) :
    WithinCapacity limits (r.addSource source) := by
  have sources : (r.addSource source).sources = r.sources ++ [source] := upsert_of_notMem fresh
  refine ⟨?_, h.reportIds, fun report hr => ?_, fun s hs => ?_⟩
  · rw [sources]
    exact nodup_append_singleton fresh h.sourceIds
  · rw [sources, List.map_append]
    exact List.mem_append_left _ (h.known report hr)
  · rw [sources, List.mem_append, List.mem_singleton] at hs
    rcases hs with before | rfl
    · exact h.room s before
    · -- no report can belong to a source that was not there
      have none : r.eventReports.filter (·.sourceId == s.id) = [] := by
        refine List.filter_eq_nil_iff.2 fun report hr same => fresh ?_
        rw [← beq_iff_eq.1 same]
        exact h.known report hr
      show (((r.eventReports.filter (·.sourceId == s.id)).filter (·.isStanding)).length ≤ _)
      rw [none]
      exact Nat.zero_le _

theorem setReportStatus {id : String} {status : EventReportStatus} {reports : List EventReport}
    (h : WithinCapacity limits r)
    (fallen : ∀ report ∈ r.eventReports, report.id = id →
      ({ report with status : EventReport }).isStanding = true → report.isStanding = true)
    (changed : modifyKey? EventReport.id id (fun report => { report with status }) r.eventReports =
      some reports) :
    WithinCapacity limits { r with eventReports := reports } := by
  have ids : reports.map EventReport.id = r.eventReports.map EventReport.id :=
    map_of_modifyKey? changed fun _ _ _ => rfl
  have sourceIds : reports.map EventReport.sourceId = r.eventReports.map EventReport.sourceId :=
    map_of_modifyKey? changed fun _ _ _ => rfl
  refine ⟨h.sourceIds, ids ▸ h.reportIds, fun report hr => ?_, fun s hs => ?_⟩
  · have stays : report.sourceId ∈ r.eventReports.map EventReport.sourceId :=
      sourceIds ▸ List.mem_map_of_mem hr
    obtain ⟨before, hb, eq⟩ := List.mem_map.1 stays
    exact eq ▸ h.known before hb
  · refine le_trans ?_ (h.room s hs)
    rw [modifyKey?_of_nodup h.reportIds] at changed
    split_ifs at changed with found
    cases changed
    unfold Records.standing
    rw [List.filter_filter, List.filter_filter, ← List.countP_eq_length_filter,
      ← List.countP_eq_length_filter, List.countP_map]
    apply List.countP_mono_left
    intro report hr
    rw [Function.comp_apply]
    split_ifs with same
    · simp only [Bool.and_eq_true]
      exact fun ⟨stands, mine⟩ => ⟨fallen report hr same stands, mine⟩
    · exact fun stands => stands

/-- The event path keeps the source that it reports for within its capacity, and the others too. -/
theorem exchange {after : List EventReport} (h : WithinCapacity cfg.limits r)
    (mem : source ∈ r.sources)
    (eq : exchangeReports?
        (eventExchange cfg source trigger datum
          (r.eventReports.filter (·.sourceId == source.id))).1
        (eventExchange cfg source trigger datum
          (r.eventReports.filter (·.sourceId == source.id))).2 r.eventReports = some after) :
    WithinCapacity cfg.limits { r with eventReports := after } := by
  have mine_ids : ((r.eventReports.filter (·.sourceId == source.id)).map EventReport.id).Nodup :=
    h.reportIds.sublist (List.filter_sublist.map _)
  have mine : ∀ report ∈ (eventExchange cfg source trigger datum
      (r.eventReports.filter (·.sourceId == source.id))).1, report.sourceId = source.id :=
    fun report hr => (of_mem_insert_eventExchange hr).1
  rw [eventExchange_eq_some_iff h.reportIds] at eq
  obtain ⟨rfl, ids⟩ := eq
  refine ⟨h.sourceIds, ids, fun report hr => ?_, fun s hs => ?_⟩
  · rcases List.mem_append.1 hr with left | inserted
    · exact h.known report (List.mem_of_mem_filter left)
    · rw [mine report inserted]
      exact List.mem_map_of_mem mem
  · unfold Records.standing
    by_cases same : s.id = source.id
    · obtain rfl : s = source := List.inj_on_of_nodup_map h.sourceIds hs mem same
      rw [filter_exchange_self mine]
      exact standing_eventExchange_le mine_ids (h.room s hs)
    · rw [filter_exchange_of_ne same h.reportIds (fun _ => own_delete_eventExchange) mine]
      exact h.room s hs

theorem process {draws : Draws} (h : WithinCapacity cfg.limits r)
    (performed : performAll (triggerPlan cfg r trigger draws).writes r = .ok () r') :
    WithinCapacity cfg.limits r' := by
  have sources : r'.sources.map Source.asRegistered = r.sources.map Source.asRegistered :=
    asRegistered_of_performAll performed fun _ hw =>
      keepsRules_triggerPlan cfg trigger draws h.sourceIds hw
  rcases eventReports_of_performAll performed with reports | ⟨source, losers, datum, won, eq⟩
  · exact h.of_asRegistered sources reports
  · exact (h.exchange (of_selectSource won).1 eq).of_asRegistered sources rfl

end WithinCapacity

/-! ## Whole lives -/

/-- Records without event reports, in which no two sources share an id. -/
def WithoutReports (r : Records) : Prop :=
  r.eventReports = [] ∧ (r.sources.map Source.id).Nodup

/-- No source is registered twice, and no report comes to stand again. -/
def LeavesRoom (r : Records) : JobEvent → Prop
  | .addSource source => source.id ∉ r.sources.map Source.id
  | .setReportStatus id status =>
    ∀ report ∈ r.eventReports, report.id = id →
      ({ report with status : EventReport }).isStanding = true → report.isStanding = true
  | .addTrigger _ | .process _ => True

theorem Reachable.withinCapacity {s : JobState Store}
    (h : Reachable cfg WithoutReports LeavesRoom s) :
    WithinCapacity cfg.limits s.store.records := by
  refine h.records (WithinCapacity cfg.limits) ?_ ?_ ?_ ?_ ?_
  · exact fun r start => .of_no_reports start.1 start.2
  · exact fun r source inv fresh => inv.addSource fresh
  · exact fun r trigger inv _ => inv.of_asRegistered rfl rfl
  · exact fun r id status reports inv fallen changed => inv.setReportStatus fallen changed
  · exact fun r id trigger draws r' inv _ _ performed => inv.process performed

/-- A source never has more standing event reports than it may have. -/
theorem standing_le_capacity {s : JobState Store} (h : Reachable cfg WithoutReports LeavesRoom s)
    (mem : source ∈ s.store.records.sources) :
    (s.store.records.standing source.id).length ≤ source.capacity cfg.limits :=
  h.withinCapacity.room source mem

/-- The limits that apply by default, with rates of zero. -/
def sampleConfig : JobConfig := ⟨.default, ⟨0, 0, 0, 0, 0, 0⟩⟩

/-- A trigger that leads to a report of the sample source. -/
def sampleTrigger (id : String) : Trigger :=
  { Sample.trigger with id, eventData := [{ data := 1 }] }

/-- The store after the sample source got the only report that it may have. -/
def sampleReported : JobState Store :=
  [.addSource Sample.source, .addTrigger (sampleTrigger "trigger1"), .process "trigger1"].foldl
    (step sampleConfig) ⟨{}, []⟩

/-- The same store after this report was delivered and another trigger followed. -/
def sampleDelivered : JobState Store :=
  [.setReportStatus "source1:trigger1" .delivered, .addTrigger (sampleTrigger "trigger2"),
    .process "trigger2"].foldl (step sampleConfig) sampleReported

theorem standing_le_capacity_sample :
    (sampleDelivered.store.records.standing Sample.source.id).map EventReport.id =
        ["source1:trigger1"] ∧
      (sampleDelivered.store.records.standing Sample.source.id).length ≤
        Sample.source.capacity sampleConfig.limits := by
  have sources : sampleDelivered.store.records.sources = [Sample.source] := by cbv
  have mem : Sample.source ∈ sampleDelivered.store.records.sources := by
    rw [sources]
    exact List.mem_singleton_self _
  have reported : Reachable sampleConfig WithoutReports LeavesRoom sampleReported := by
    simp only [sampleReported, List.foldl_cons, List.foldl_nil]
    refine .step (.step (.step (.start ?_) ?_) ?_) ?_
    · exact ⟨rfl, List.nodup_nil⟩
    · exact List.not_mem_nil
    · trivial
    · trivial
  have delivered : Reachable sampleConfig WithoutReports LeavesRoom sampleDelivered := by
    have standing : sampleReported.store.records.eventReports.all (·.isStanding) = true := by cbv
    simp only [sampleDelivered, List.foldl_cons, List.foldl_nil]
    refine .step (.step (.step reported ?_) ?_) ?_
    · exact fun report hr _ _ => List.all_eq_true.1 standing report hr
    · trivial
    · trivial
  exact ⟨by cbv, standing_le_capacity delivered mem⟩

end Job

end AttributionReporting
