import AttributionReporting.Proofs.Job.DestinationCap
import AttributionReporting.Proofs.Job.Refusal

/-!
# What belongs to a source

All reports and attributions of a source name its enrollment and go to destinations that it lists,
and the ids of its reports begin with its id (`Source.Owns`, `Source.Recorded`). When the ids of
sources have no colon, an id of a report therefore tells the source, and with it the enrollment.
This holds all through a life in which sources are registered once, whatever happens to triggers
(`Life.owned`).
-/

namespace AttributionReporting

namespace Source

/-- The enrollment that something names is that of the source, and its id begins with the id of the
source. -/
structure Issues (source : Source) (enrollmentId id : String) : Prop where
  enrollment : source.enrollmentId = enrollmentId
  label : ∃ rest, id = source.id ++ ":" ++ rest

/-- Reports of a source name its enrollment, have its id in theirs and go to its destinations. -/
structure Owns (source : Source) (events : List EventReport) (aggregates : List AggregateReport) :
    Prop where
  colonless : Colonless source.id
  events : ∀ report ∈ events, source.Issues report.enrollmentId report.id ∧
    report.destinations = source.allDestinations
  aggregates : ∀ report ∈ aggregates, source.Issues report.enrollmentId report.id ∧
    report.destination ∈ source.allDestinations

/-- An attribution to the source was made by its enrollment, at a destination that it lists. -/
structure Recorded (source : Source) (a : Attribution) : Prop where
  sourceId : source.id = a.sourceId
  enrollment : source.enrollmentId = a.enrollmentId
  listed : a.destinationSite ∈ source.allDestinations

variable {source source' : Source}

theorem enrollmentId_congr (same : source'.asRegistered = source.asRegistered) :
    source'.enrollmentId = source.enrollmentId := by
  have eq := congrArg Source.enrollmentId same
  exact eq

theorem Owns.congr {events : List EventReport} {aggregates : List AggregateReport}
    (h : source.Owns events aggregates) (same : source'.asRegistered = source.asRegistered) :
    source'.Owns events aggregates := by
  have issues {enrollmentId id : String} (h : source.Issues enrollmentId id) :
      source'.Issues enrollmentId id :=
    ⟨(enrollmentId_congr same).trans h.enrollment, id_congr same ▸ h.label⟩
  have destinations := allDestinations_congr same
  exact ⟨id_congr same ▸ h.colonless,
    fun report mem => (h.events report mem).imp issues (·.trans destinations.symm),
    fun report mem => (h.aggregates report mem).imp issues (destinations ▸ ·)⟩

theorem Recorded.congr {a : Attribution} (h : source.Recorded a)
    (same : source'.asRegistered = source.asRegistered) : source'.Recorded a where
  sourceId := (id_congr same).trans h.sourceId
  enrollment := (enrollmentId_congr same).trans h.enrollment
  listed := allDestinations_congr same ▸ h.listed

end Source

/-- Ids are distinct, and whatever is reported or recorded belongs to a stored source. -/
structure Records.Owned (r : Records) : Prop where
  keyed : r.WellKeyed
  each : Job.EachSource Source.Owns r
  attributions : ∀ a ∈ r.attributions, ∃ source ∈ r.sources, source.Recorded a

namespace Records.Owned

variable {r : Records}

theorem of_event (h : r.Owned) {report : EventReport} (mem : report ∈ r.eventReports) :
    ∃ source ∈ r.sources, source.id = report.sourceId ∧
      source.Issues report.enrollmentId report.id ∧
        report.destinations = source.allDestinations := by
  obtain ⟨source, stored, same⟩ := List.mem_map.1 (h.each.events report mem)
  have own : report ∈ r.eventReportsOf source.id :=
    List.mem_filter.2 ⟨mem, beq_iff_eq.2 same.symm⟩
  exact ⟨source, stored, same, (h.each.each source stored).events report own⟩

theorem of_aggregate (h : r.Owned) {report : AggregateReport} (mem : report ∈ r.aggregateReports) :
    ∃ source ∈ r.sources, source.id = report.sourceId ∧
      source.Issues report.enrollmentId report.id ∧
        report.destination ∈ source.allDestinations := by
  obtain ⟨source, stored, same⟩ := List.mem_map.1 (h.each.aggregates report mem)
  have own : report ∈ r.aggregateReportsOf source.id :=
    List.mem_filter.2 ⟨mem, beq_iff_eq.2 same.symm⟩
  exact ⟨source, stored, same, (h.each.each source stored).aggregates report own⟩

end Records.Owned

namespace Job

variable {cfg : JobConfig} {r : Records} {winner credited : Source} {trigger : Trigger}
  {deleted inserted : List EventReport}

theorem EventCredit.issues (h : EventCredit cfg r winner trigger credited deleted inserted)
    {report : EventReport} (mem : report ∈ inserted) :
    winner.Issues report.enrollmentId report.id := by
  refine ⟨?_, ?_⟩
  · rcases h.inserted_cases mem with ⟨before, datum, -, -, -, desired⟩ | ⟨datum, time, -, -, rfl⟩
    · rw [ReportSpec.desired_eq_map] at desired
      obtain ⟨c, -, rfl⟩ := List.mem_map.1 desired
      rfl
    · rfl
  · rw [h.id_eq mem, ← (h.pending mem).1]
    exact report.exists_ownId_eq

theorem issues_aggregateReport (source : Source) (trigger : Trigger) (delay : Int) :
    source.Issues (aggregateReport source trigger delay).enrollmentId
      (aggregateReport source trigger delay).id := by
  refine ⟨rfl, trigger.id ++ ":aggregate", ?_⟩
  unfold aggregateReport
  simp only [String.append_assoc]

theorem sourcewise_owns : Sourcewise cfg Source.Owns where
  ignored h := h.congr rfl
  settled id status h := by
    refine ⟨h.colonless, fun report mem => ?_, h.aggregates⟩
    obtain ⟨before, stored, rfl⟩ := List.mem_map.1 mem
    split_ifs
    · exact h.events before stored
    · exact h.events before stored
  credited {r trigger a} earned h := by
    refine Source.Owns.congr ⟨h.colonless, fun report mem => ?_, fun report mem => ?_⟩
      earned.registered
    · rcases List.mem_append.1 mem with left | inserted
      · exact h.events report (List.mem_of_mem_filter left)
      · exact ⟨earned.eventCredit.issues inserted, earned.eventCredit.destinations inserted⟩
    · rcases List.mem_append.1 mem with before | inserted
      · exact h.aggregates report before
      · obtain ⟨delay, rfl⟩ := earned.aggregateCredit.exists_eq (Option.mem_toList.1 inserted)
        exact ⟨issues_aggregateReport a.winner trigger delay, destination_mem_winner earned.toValid⟩

theorem Award.Valid.recorded {a : Award} (valid : a.Valid trigger r) :
    a.winner.Recorded (Attribution.of a.winner trigger) := by
  obtain ⟨-, enrollment, -⟩ := Source.matchesTrigger_iff.1 valid.winner_matches
  exact ⟨rfl, enrollment, destination_mem_winner valid⟩

theorem Life.owned (h : Life cfg (· = {}) (Registers (Colonless ·.id)) r) : r.Owned := by
  obtain ⟨keyed, each⟩ := (h.mono fun r start => start ▸
      (⟨Records.wellKeyed_empty, rfl, rfl, by simp⟩ : Unreported (Colonless ·.id) {})).eachSource
    sourcewise_owns fun source colonless => ⟨colonless, by simp, by simp⟩
  refine ⟨keyed, each, (h.awards
    (fun r => ∀ a ∈ r.attributions, ∃ source ∈ r.sources, source.Recorded a) ?_ ?_ ?_ ?_ ?_).2⟩
  · rintro r rfl
    exact ⟨Records.wellKeyed_empty, by simp⟩
  · rintro r source keyed inv ⟨new, -⟩ a mem
    obtain ⟨s, stored, recorded⟩ := inv a mem
    exact ⟨s, Records.sources_addSource new ▸ List.mem_append_left _ stored, recorded⟩
  · exact fun r triggers inv => inv
  · exact fun r id status inv _ => inv
  · intro r trigger a keyed inv earned _ attribution mem
    rcases List.mem_append.1 mem with before | new
    · obtain ⟨s, stored, recorded⟩ := inv attribution before
      obtain ⟨after, stored', same⟩ := earned.exists_mem_apply keyed.sources stored
      exact ⟨after, stored', recorded.congr same⟩
    · obtain ⟨after, stored', same⟩ := earned.exists_mem_apply keyed.sources earned.winner_mem
      rw [List.mem_singleton.1 new]
      exact ⟨after, stored', earned.recorded.congr same⟩

end Job

end AttributionReporting
