import AttributionReporting.Proofs.Job.Life

/-!
# Sources with their reports

Much of what holds of the records can be said of one source at a time, with the reports that belong
to it. Such a property holds of every source all through a life if registrations begin with it and
credits keep it, whatever happens to other sources in between (`Life.eachSource`).
-/

namespace AttributionReporting

namespace Records

/-- The event reports of a source. -/
def eventReportsOf (r : Records) (sourceId : String) : List EventReport :=
  r.eventReports.filter (·.sourceId == sourceId)

/-- The aggregate reports of a source. -/
def aggregateReportsOf (r : Records) (sourceId : String) : List AggregateReport :=
  r.aggregateReports.filter (·.sourceId == sourceId)

theorem eventReportsOf_withReportStatus (r : Records) (id : String) (status : EventReportStatus)
    (sourceId : String) :
    (r.withReportStatus id status).eventReportsOf sourceId =
      (r.eventReportsOf sourceId).map fun report =>
        if report.id = id then { report with status } else report := by
  unfold eventReportsOf withReportStatus
  rw [List.filter_map]
  congr 1
  apply List.filter_congr
  intro report _
  rw [Function.comp_apply]
  split_ifs <;> rfl

theorem sources_addSource {r : Records} {source : Source}
    (new : source.id ∉ r.sources.map Source.id) :
    (r.addSource source).sources = r.sources ++ [source] :=
  upsert_of_notMem new

theorem triggers_addTrigger {r : Records} {trigger : Trigger}
    (new : trigger.id ∉ r.triggers.map Trigger.id) :
    (r.addTrigger trigger).triggers = r.triggers ++ [trigger] :=
  upsert_of_notMem new

theorem map_id_addSource {r : Records} {source : Source}
    (new : source.id ∉ r.sources.map Source.id) :
    (r.addSource source).sources.map Source.id = r.sources.map Source.id ++ [source.id] := by
  rw [sources_addSource new, List.map_append, List.map_singleton]

theorem map_id_addTrigger {r : Records} {trigger : Trigger}
    (new : trigger.id ∉ r.triggers.map Trigger.id) :
    (r.addTrigger trigger).triggers.map Trigger.id = r.triggers.map Trigger.id ++ [trigger.id] := by
  rw [triggers_addTrigger new, List.map_append, List.map_singleton]

end Records

theorem Source.matchesTrigger_iff {s : Source} {t : Trigger} :
    s.matchesTrigger t = true ↔ s.status = .active ∧ s.enrollmentId = t.enrollmentId ∧
      t.destination ∈ s.destinations t.destinationType ∧ s.eventTime ≤ t.time ∧
        t.time < s.expiryTime := by
  simp only [matchesTrigger, Bool.and_eq_true, beq_iff_eq, List.contains_iff_mem,
    decide_eq_true_eq, and_assoc]

theorem Source.id_congr {s s' : Source} (same : s'.asRegistered = s.asRegistered) :
    s'.id = s.id := by
  have eq := congrArg Source.id same
  exact eq

namespace Job

/-- Records without reports, with distinct ids, and with sources as `P` says. -/
structure Unreported (P : Source → Prop) (r : Records) : Prop where
  keyed : r.WellKeyed
  eventReports : r.eventReports = []
  aggregateReports : r.aggregateReports = []
  sources : ∀ source ∈ r.sources, P source

/-- Sources are registered once, as `P` says. Everything else may happen. -/
def Registers (P : Source → Prop) (r : Records) : JobEvent → Prop
  | .addSource source => source.id ∉ r.sources.map Source.id ∧ P source
  | .addTrigger _ | .setReportStatus .. | .process _ => True

/-- Reports belong to stored sources, and `Q` holds of every source with its reports. -/
structure EachSource (Q : Source → List EventReport → List AggregateReport → Prop) (r : Records) :
    Prop where
  events : ∀ report ∈ r.eventReports, report.sourceId ∈ r.sources.map Source.id
  aggregates : ∀ report ∈ r.aggregateReports, report.sourceId ∈ r.sources.map Source.id
  each : ∀ source ∈ r.sources,
    Q source (r.eventReportsOf source.id) (r.aggregateReportsOf source.id)

/-- What is kept when a source loses, when its reports get another status and when it is
credited. -/
structure Sourcewise (cfg : JobConfig)
    (Q : Source → List EventReport → List AggregateReport → Prop) : Prop where
  ignored : ∀ {source events aggregates}, Q source events aggregates →
    Q { source with status := .ignored } events aggregates
  settled : ∀ {source events aggregates} (id : String) (status : EventReportStatus),
    Q source events aggregates →
      Q source (events.map fun report => if report.id = id then { report with status } else report)
        aggregates
  credited : ∀ {r trigger} {a : Award}, a.Earned cfg trigger r →
    Q a.winner (r.eventReportsOf a.winner.id) (r.aggregateReportsOf a.winner.id) →
      Q a.credited (remainingReports a.deleted (r.eventReportsOf a.winner.id) ++ a.inserted)
        (r.aggregateReportsOf a.winner.id ++ a.aggregate.toList)

variable {cfg : JobConfig} {r : Records} {trigger : Trigger}
  {Q : Source → List EventReport → List AggregateReport → Prop}

namespace Award.Valid

variable {a : Award} (valid : a.Valid trigger r)

include valid

theorem winner_mem : a.winner ∈ r.sources := by
  obtain ⟨losers, won⟩ := valid.won
  exact (of_selectSource won).1

theorem winner_matches : a.winner.matchesTrigger trigger = true := by
  obtain ⟨losers, won⟩ := valid.won
  exact (of_selectSource won).2

theorem credited_id : a.credited.id = a.winner.id := Source.id_congr valid.registered

theorem map_id_apply : (a.apply trigger r).sources.map Source.id = r.sources.map Source.id := by
  show (r.sources.map _).map Source.id = _
  rw [List.map_map]
  apply List.map_congr_left
  intro s _
  rw [Function.comp_apply]
  split_ifs with won
  · exact valid.credited_id.trans won.symm
  · rfl
  · rfl

/-- An award leaves every source as it was registered. -/
theorem exists_mem_apply (ids : (r.sources.map Source.id).Nodup) {source : Source}
    (mem : source ∈ r.sources) :
    ∃ after ∈ (a.apply trigger r).sources, after.asRegistered = source.asRegistered := by
  refine ⟨_, List.mem_map_of_mem mem, ?_⟩
  split_ifs with won
  · obtain rfl : source = a.winner := List.inj_on_of_nodup_map ids mem valid.winner_mem won
    exact valid.registered
  · rfl
  · rfl

theorem eventReportsOf_winner :
    (a.apply trigger r).eventReportsOf a.winner.id =
      remainingReports a.deleted (r.eventReportsOf a.winner.id) ++ a.inserted :=
  filter_exchange_self valid.inserted

theorem aggregateReportsOf_winner :
    (a.apply trigger r).aggregateReportsOf a.winner.id =
      r.aggregateReportsOf a.winner.id ++ a.aggregate.toList := by
  show (r.aggregateReports ++ a.aggregate.toList).filter _ = _
  rw [List.filter_append]
  congr 1
  refine List.filter_eq_self.2 fun report hr => ?_
  exact beq_iff_eq.2 (valid.aggregate report (Option.mem_toList.1 hr))

end Award.Valid

/-- Only the winner is credited. -/
theorem Award.of_mem_sources_apply {a : Award} {after : Source}
    (mem : after ∈ (a.apply trigger r).sources) :
    after = a.credited ∨ ∃ source ∈ r.sources, after.asRegistered = source.asRegistered ∧
      after.reportSpec = source.reportSpec := by
  obtain ⟨source, stored, rfl⟩ := List.mem_map.1 mem
  split_ifs
  · exact .inl rfl
  · exact .inr ⟨source, stored, rfl, rfl⟩
  · exact .inr ⟨source, stored, rfl, rfl⟩

namespace EachSource

theorem of_unreported {P : Source → Prop} (h : Unreported P r)
    (fresh : ∀ source, P source → Q source [] []) : EachSource Q r where
  events := by simp [h.eventReports]
  aggregates := by simp [h.aggregateReports]
  each source hs := by
    unfold Records.eventReportsOf Records.aggregateReportsOf
    rw [h.eventReports, h.aggregateReports]
    exact fresh source (h.sources source hs)

theorem addSource {source : Source} (h : EachSource Q r)
    (new : source.id ∉ r.sources.map Source.id) (fresh : Q source [] []) :
    EachSource Q (r.addSource source) := by
  have sources := Records.sources_addSource new
  have ids := Records.map_id_addSource new
  refine ⟨fun report hr => ?_, fun report hr => ?_, fun s hs => ?_⟩
  · rw [ids]
    exact List.mem_append_left _ (h.events report hr)
  · rw [ids]
    exact List.mem_append_left _ (h.aggregates report hr)
  · rw [sources, List.mem_append, List.mem_singleton] at hs
    rcases hs with before | rfl
    · exact h.each s before
    · -- no report can belong to a source that was not there
      have no_events : r.eventReportsOf s.id = [] :=
        List.filter_eq_nil_iff.2 fun report hr same =>
          new (beq_iff_eq.1 same ▸ h.events report hr)
      have no_aggregates : r.aggregateReportsOf s.id = [] :=
        List.filter_eq_nil_iff.2 fun report hr same =>
          new (beq_iff_eq.1 same ▸ h.aggregates report hr)
      show Q s (r.eventReportsOf s.id) (r.aggregateReportsOf s.id)
      rw [no_events, no_aggregates]
      exact fresh

theorem withReportStatus (keeps : Sourcewise cfg Q) (h : EachSource Q r) (id : String)
    (status : EventReportStatus) : EachSource Q (r.withReportStatus id status) := by
  refine ⟨fun report hr => ?_, h.aggregates, fun s hs => ?_⟩
  · obtain ⟨before, hb, rfl⟩ := List.mem_map.1 hr
    have mem := h.events before hb
    split_ifs
    · exact mem
    · exact mem
  · rw [Records.eventReportsOf_withReportStatus]
    exact keeps.settled id status (h.each s hs)

theorem apply (keeps : Sourcewise cfg Q) (h : EachSource Q r) {a : Award} (keyed : r.WellKeyed)
    (earned : a.Earned cfg trigger r) : EachSource Q (a.apply trigger r) := by
  have ids := earned.map_id_apply
  have stored : a.winner.id ∈ r.sources.map Source.id := List.mem_map_of_mem earned.winner_mem
  refine ⟨fun report hr => ?_, fun report hr => ?_, fun s' hs' => ?_⟩
  · rw [ids]
    rcases List.mem_append.1 hr with left | inserted
    · exact h.events report (List.mem_of_mem_filter left)
    · rw [earned.inserted report inserted]
      exact stored
  · rw [ids]
    rcases List.mem_append.1 hr with before | inserted
    · exact h.aggregates report before
    · rw [earned.aggregate report (Option.mem_toList.1 inserted)]
      exact stored
  · obtain ⟨s, hs, rfl⟩ := List.mem_map.1 hs'
    split_ifs with won lost
    · rw [earned.credited_id, earned.eventReportsOf_winner, earned.aggregateReportsOf_winner]
      exact keeps.credited earned (h.each a.winner earned.winner_mem)
    all_goals
      -- the reports of other sources are as before
      have events : (a.apply trigger r).eventReportsOf s.id = r.eventReportsOf s.id :=
        earned.eventReports_of_ne keyed.eventReports won
      have aggregates : (a.apply trigger r).aggregateReportsOf s.id = r.aggregateReportsOf s.id :=
        earned.aggregateReports_of_ne won
      rw [events, aggregates]
    · exact keeps.ignored (h.each s hs)
    · exact h.each s hs

end EachSource

/-- What registrations begin with and credits keep holds of every source with its reports. -/
theorem Life.eachSource {P : Source → Prop} (keeps : Sourcewise cfg Q)
    (fresh : ∀ source, P source → Q source [] [])
    (h : Life cfg (Unreported P) (Registers P) r) : r.WellKeyed ∧ EachSource Q r := by
  refine h.awards (EachSource Q) ?_ ?_ ?_ ?_ ?_
  · exact fun r start => ⟨start.keyed, .of_unreported start fresh⟩
  · exact fun r source _ inv allowed => inv.addSource allowed.1 (fresh source allowed.2)
  · exact fun r triggers inv => ⟨inv.events, inv.aggregates, inv.each⟩
  · exact fun r id status inv _ => inv.withReportStatus keeps id status
  · exact fun r trigger a keyed inv earned _ => inv.apply keeps keyed earned

end Job

end AttributionReporting
