import AttributionReporting.Proofs.Job.Sourcewise

/-!
# Dedup keys are used once

A trigger with a dedup key that its source has used before gets no report. Three places remember the
keys: a list for aggregate reports, a list for the event reports of a plain source, and the history
of a flexible one. Each path looks for the key of the trigger where it is going to put it, so no key
is put anywhere twice (`dedupKeys_nodup`), however reports are replaced, deleted or delivered
meanwhile.
-/

namespace AttributionReporting

/-- A key that is new to a list of keys, if there is one, may join it. -/
theorem nodup_append_toList {keys : List UInt64} {key : Option UInt64} (nodup : keys.Nodup)
    (new : key.any keys.contains = false) : (keys ++ key.toList).Nodup := by
  cases key with
  | none => rwa [Option.toList_none, List.append_nil]
  | some key =>
    have notMem : key ∉ keys := by simpa using new
    rw [Option.toList_some, List.nodup_append_comm]
    exact List.nodup_cons.2 ⟨notMem, nodup⟩

/-- The dedup keys in the history of a flexible source. -/
def ReportSpec.dedupKeys (spec : ReportSpec) : List UInt64 := spec.history.filterMap (·.dedupKey)

theorem ReportSpec.hasDedupKey_eq (spec : ReportSpec) :
    spec.hasDedupKey = spec.dedupKeys.contains := by
  funext key
  rw [Bool.eq_iff_iff]
  simp [hasDedupKey, dedupKeys]

theorem ReportSpec.nodup_dedupKeys_record {spec : ReportSpec} {rules : TriggerSpec}
    {eventTime : Int} {t : AttributedTrigger} (nodup : spec.dedupKeys.Nodup)
    (joins : spec.rulesFor eventTime t = .ok rules) : (spec.record t).dedupKeys.Nodup := by
  have split : (spec.record t).dedupKeys = spec.dedupKeys ++ t.dedupKey.toList := by
    unfold dedupKeys record
    rw [List.filterMap_append]
    cases h : t.dedupKey <;> simp [h]
  have new := dedupKey_of_rulesFor joins
  rw [spec.hasDedupKey_eq] at new
  rw [split]
  exact nodup_append_toList nodup new

/-- The dedup keys of some event reports. -/
def eventKeys (reports : List EventReport) : List UInt64 :=
  reports.filterMap (·.credited.dedupKey)

/-- The dedup keys of some aggregate reports. -/
def aggregateKeys (reports : List AggregateReport) : List UInt64 :=
  reports.filterMap (·.dedupKey)

theorem eventKeys_append_singleton (reports : List EventReport) (report : EventReport) :
    eventKeys (reports ++ [report]) = eventKeys reports ++ report.credited.dedupKey.toList := by
  unfold eventKeys
  rw [List.filterMap_append]
  cases h : report.credited.dedupKey <;> simp [h]

namespace Job

/-- A source that has used no dedup key. -/
structure Unused (source : Source) : Prop where
  events : source.eventDedupKeys = []
  aggregates : source.aggregateDedupKeys = []
  history : ∀ spec, source.reportSpec = some spec → spec.history = []

/-- The keys that a source remembers for event reports, with those reports. -/
structure KeepsEventKeys (source : Source) (events : List EventReport) : Prop where
  nodup : source.eventDedupKeys.Nodup
  known : eventKeys events ⊆ source.eventDedupKeys
  distinct : (eventKeys events).Nodup

/-- The keys that a source remembers, with its reports. -/
structure Deduplicated (source : Source) (events : List EventReport)
    (aggregates : List AggregateReport) : Prop where
  nodup : source.aggregateDedupKeys.Nodup
  keys : source.aggregateDedupKeys = aggregateKeys aggregates
  plain : source.reportSpec = none → KeepsEventKeys source events
  flexible : ∀ spec, source.reportSpec = some spec → spec.dedupKeys.Nodup

variable {cfg : JobConfig} {r : Records} {source credited : Source} {trigger : Trigger}
  {events deleted inserted : List EventReport} {aggregates : List AggregateReport}
  {aggregate : Option AggregateReport}

theorem Unused.deduplicated (h : Unused source) : Deduplicated source [] [] where
  nodup := by simp [h.aggregates]
  keys := h.aggregates
  plain _ := ⟨by simp [h.events], List.nil_subset _, List.nodup_nil⟩
  flexible spec kind := by simp [ReportSpec.dedupKeys, h.history spec kind]

/-- A report of a plain source, whatever it replaces, brings a new key. -/
theorem KeepsEventKeys.insert (h : KeepsEventKeys source events)
    {datum : EventTriggerDatum} {report : EventReport} {replaces : Option EventReport}
    {limits : Limits} {rate : Float}
    (decided : decideStandardReport source trigger datum events limits rate =
      .insert report replaces)
    (keys : credited.eventDedupKeys = source.eventDedupKeys ++ datum.dedupKey.toList) :
    KeepsEventKeys credited (remainingReports replaces.toList events ++ [report]) := by
  obtain ⟨reportTime, -, new, rfl, -⟩ := decideStandardReport_eq_insert decided
  have fewer : (eventKeys (remainingReports replaces.toList events)).Sublist (eventKeys events) :=
    List.filter_sublist.filterMap _
  have known := List.Subset.trans fewer.subset h.known
  have fresh : datum.dedupKey.any (eventKeys (remainingReports replaces.toList events)).contains =
      false := by
    cases has : datum.dedupKey with
    | none => rfl
    | some key =>
      have notMem : key ∉ source.eventDedupKeys := by simpa [has] using new
      simpa using fun mem => notMem (known mem)
  constructor
  · rw [keys]
    exact nodup_append_toList h.nodup new
  · rw [keys, eventKeys_append_singleton]
    exact List.append_subset.2 ⟨List.subset_append_of_subset_left _ known,
      List.subset_append_right _ _⟩
  · rw [eventKeys_append_singleton]
    exact nodup_append_toList (h.distinct.sublist fewer) fresh

/-- A credit on the event path. -/
theorem Deduplicated.of_eventCredit
    (h : Deduplicated source (r.eventReportsOf source.id) aggregates)
    (credit : EventCredit cfg r source trigger credited deleted inserted) :
    (credited.reportSpec = none →
      KeepsEventKeys credited
        (remainingReports deleted (r.eventReportsOf source.id) ++ inserted)) ∧
      ∀ spec, credited.reportSpec = some spec → spec.dedupKeys.Nodup := by
  cases credit with
  | nothing keys rules deletes inserts =>
    rw [rules, deletes, inserts, remainingReports_nil, List.append_nil]
    refine ⟨fun kind => ?_, h.flexible⟩
    obtain ⟨nodup, known, distinct⟩ := h.plain kind
    exact ⟨keys ▸ nodup, keys ▸ known, distinct⟩
  | flexible _ kind joins _ history _ _ =>
    rw [history]
    constructor
    · intro plain
      cases plain
    · intro spec same
      cases same
      exact ReportSpec.nodup_dedupKeys_record (h.flexible _ kind) joins
  | plain _ kind decided keys rules deletes inserts =>
    rw [deletes, inserts]
    refine ⟨fun _ => (h.plain kind).insert decided keys, fun spec flexible => ?_⟩
    rw [rules] at flexible
    cases flexible

/-- A credit on the aggregate path. -/
theorem Deduplicated.of_aggregateCredit (h : Deduplicated source events aggregates)
    (credit : AggregateCredit cfg r source trigger credited aggregate) :
    credited.aggregateDedupKeys.Nodup ∧
      credited.aggregateDedupKeys = aggregateKeys (aggregates ++ aggregate.toList) := by
  cases credit with
  | nothing _ keys inserts =>
    rw [keys, inserts, Option.toList_none, List.append_nil]
    exact ⟨h.nodup, h.keys⟩
  | @report delay free _ _ keys inserts =>
    obtain ⟨-, new, -, -⟩ := aggregateObstacle?_eq_none free
    have one : aggregateKeys (some (aggregateReport source trigger delay)).toList =
        (matchingDedupKey source trigger).toList := by
      simp only [aggregateKeys, aggregateReport, Option.toList_some]
      cases matchingDedupKey source trigger <;> rfl
    refine ⟨keys ▸ nodup_append_toList h.nodup new, ?_⟩
    rw [keys, inserts, h.keys, ← one]
    exact List.filterMap_append.symm

theorem sourcewise_deduplicated (cfg : JobConfig) : Sourcewise cfg Deduplicated where
  ignored h := ⟨h.nodup, h.keys, fun kind =>
    ⟨(h.plain kind).nodup, (h.plain kind).known, (h.plain kind).distinct⟩, h.flexible⟩
  settled {source events aggregates} id status h := by
    have same : eventKeys (events.map fun report =>
        if report.id = id then { report with status } else report) = eventKeys events := by
      unfold eventKeys
      rw [List.filterMap_map]
      congr 1
      funext report
      rw [Function.comp_apply]
      split_ifs <;> rfl
    refine ⟨h.nodup, h.keys, fun kind => ?_, h.flexible⟩
    obtain ⟨nodup, known, distinct⟩ := h.plain kind
    exact ⟨nodup, same ▸ known, same ▸ distinct⟩
  credited earned h := by
    obtain ⟨plain, flexible⟩ := h.of_eventCredit earned.eventCredit
    obtain ⟨nodup, keys⟩ := h.of_aggregateCredit earned.aggregateCredit
    exact ⟨nodup, keys, plain, flexible⟩

/-- All through a life, no dedup key of a source is used twice: its aggregate reports have different
keys, namely those that it remembers, in this order; so do the event reports of a plain source,
whose keys are among those that it remembers; and so do the triggers in the history of a flexible
source. -/
theorem dedupKeys_nodup (h : Life cfg (Unreported Unused) (Registers Unused) r) :
    ∀ source ∈ r.sources,
      (source.aggregateDedupKeys.Nodup ∧
        source.aggregateDedupKeys =
          (r.aggregateReportsOf source.id).filterMap (·.dedupKey)) ∧
      (source.reportSpec = none →
        source.eventDedupKeys.Nodup ∧
        (∀ report ∈ r.eventReportsOf source.id, ∀ key, report.credited.dedupKey = some key →
          key ∈ source.eventDedupKeys) ∧
        ((r.eventReportsOf source.id).filterMap (·.credited.dedupKey)).Nodup) ∧
      ∀ spec, source.reportSpec = some spec → (spec.history.filterMap (·.dedupKey)).Nodup := by
  obtain ⟨-, inv⟩ := h.eachSource (sourcewise_deduplicated cfg) fun _ => Unused.deduplicated
  intro source hs
  obtain ⟨nodup, keys, plain, flexible⟩ := inv.each source hs
  refine ⟨⟨nodup, keys⟩, fun kind => ?_, flexible⟩
  obtain ⟨remembered, known, distinct⟩ := plain kind
  exact ⟨remembered, fun report hr key has => known (List.mem_filterMap.2 ⟨report, hr, has⟩),
    distinct⟩

/-- A followed source that contributes under one key. -/
def sampleFollowed : Source :=
  { Sample.source with
    type := .navigation, aggregationKeys := StringMap.ofList [("purchase", 1)] }

/-- A trigger for reports of both kinds with a dedup key. -/
def sampleKeyed (id : String) (key : UInt64) : Trigger :=
  { Sample.trigger with
    id
    eventData := [{ data := 1, dedupKey := some key }]
    aggregatableData := [⟨2, ["purchase"], .unconstrained, .unconstrained⟩]
    aggregateValues := StringMap.ofList [("purchase", 100)]
    aggregateDedupKeys := [⟨some key, .unconstrained, .unconstrained⟩] }

/-- The store after two triggers with the same key. -/
def sampleRepeated : JobState Store :=
  [.addSource sampleFollowed, .addTrigger (sampleKeyed "trigger1" 7),
    .addTrigger (sampleKeyed "trigger2" 7), .process "trigger1", .process "trigger2"].foldl
    (step sampleConfig) ⟨{}, []⟩

theorem dedupKeys_nodup_sample :
    sampleRepeated.store.records.triggers.map (·.status) = [.attributed, .ignored] ∧
      sampleRepeated.store.records.sources.map (·.aggregateDedupKeys) = [[7]] ∧
      ∀ source ∈ sampleRepeated.store.records.sources,
        source.aggregateDedupKeys =
          (sampleRepeated.store.records.aggregateReportsOf source.id).filterMap (·.dedupKey) := by
  have unused : Unused sampleFollowed := by
    refine ⟨rfl, rfl, fun spec none => ?_⟩
    cases none
  have reached : Reachable sampleConfig (Unreported Unused) (Registers Unused) sampleRepeated := by
    simp only [sampleRepeated, List.foldl_cons, List.foldl_nil]
    refine .step (.step (.step (.step (.step (.start ?_) ?_) ?_) ?_) ?_) ?_
    · exact ⟨Records.wellKeyed_empty, rfl, rfl, fun _ none => absurd none List.not_mem_nil⟩
    · exact ⟨List.not_mem_nil, unused⟩
    all_goals trivial
  exact ⟨by cbv, by cbv, fun source hs => (dedupKeys_nodup reached.life source hs).1.2⟩

end Job

end AttributionReporting
