import AttributionReporting.Proofs.EventReport.ReportTime
import AttributionReporting.Proofs.Job.Sourcewise

/-!
# What reports and attributions go back to

A report of a flexible source may be made while another trigger than the one it credits is being
processed, from a history that was recorded long before. Still every attribution on record was made
to a source that admits its trigger (`Records.Backs`), every entry of a history and every report
goes back to such an attribution (`Records.BacksCredit`, `Records.BacksReport`), and no trigger is
attributed twice. An attributed trigger therefore has one attribution, to the source of all its
reports (`reports_backed`).
-/

namespace AttributionReporting

theorem Attribution.of_congr {s s' : Source} (same : s'.asRegistered = s.asRegistered)
    (t : Trigger) : Attribution.of s' t = Attribution.of s t := by
  have eq := congrArg (Attribution.of · t) same
  exact eq

theorem selectDatum_congr {s s' : Source} (same : s'.asRegistered = s.asRegistered)
    (t : Trigger) : selectDatum s' t = selectDatum s t := by
  have eq := congrArg (selectDatum · t) same
  exact eq

/-- A source reports truthfully, and a trigger falls under its registration. -/
structure Source.Admits (source : Source) (trigger : Trigger) : Prop where
  truthful : source.mode = .truthfully
  enrollment : source.enrollmentId = trigger.enrollmentId
  listed : trigger.destination ∈ source.destinations trigger.destinationType
  started : source.eventTime ≤ trigger.time
  unexpired : trigger.time < source.expiryTime

theorem Source.Admits.congr {s s' : Source} {t : Trigger} (h : s.Admits t)
    (same : s'.asRegistered = s.asRegistered) : s'.Admits t := by
  -- only what is registered counts
  have registered : s.asRegistered.Admits t := ⟨h.truthful, h.enrollment, h.listed, h.started,
    h.unexpired⟩
  rw [← same] at registered
  exact ⟨registered.truthful, registered.enrollment, registered.listed, registered.started,
    registered.unexpired⟩

namespace Records

/-- The attribution of a trigger to a source is on record, and the source admits the trigger. -/
structure Backs (r : Records) (source : Source) (trigger : Trigger) : Prop where
  source_mem : source ∈ r.sources
  trigger_mem : trigger ∈ r.triggers
  attributed : trigger.status = .attributed
  recorded : Attribution.of source trigger ∈ r.attributions
  admits : source.Admits trigger

/-- What is credited is the first datum of the trigger that admits the source. -/
structure BacksCredit (r : Records) (source : Source) (trigger : Trigger)
    (credited : AttributedTrigger) : Prop extends r.Backs source trigger where
  selected : ∃ datum, selectDatum source trigger = some datum ∧
    credited = trigger.attributedWith datum

/-- A report of the source credits the trigger. -/
structure BacksReport (r : Records) (delay : Int) (report : EventReport) (source : Source)
    (trigger : Trigger) : Prop extends r.BacksCredit source trigger report.credited where
  sourceId : report.sourceId = source.id
  debugKey : report.triggerDebugKey = none ∨ report.triggerDebugKey = trigger.debugKey
  due : trigger.time ≤ report.reportTime - delay

/-- Whatever is credited or reported goes back to an attribution on record. -/
structure Backed (delay : Int) (r : Records) : Prop where
  attributions : ∀ a ∈ r.attributions, ∃ source trigger,
    r.Backs source trigger ∧ a = Attribution.of source trigger
  once : (r.attributions.map (·.triggerId)).Nodup
  histories : ∀ source ∈ r.sources, ∀ spec, source.reportSpec = some spec →
    (spec.history.map (·.triggerId)).Nodup ∧
      ∀ credited ∈ spec.history, ∃ trigger, r.BacksCredit source trigger credited
  events : ∀ report ∈ r.eventReports, ∃ source trigger, r.BacksReport delay report source trigger
  aggregates : ∀ report ∈ r.aggregateReports, ∃ source trigger, r.Backs source trigger ∧
    report.sourceId = source.id ∧ report.triggerId = trigger.id

/-! ## Backing that stays -/

/-- Other records to which all that backs anything was carried over. -/
structure Carries (r r' : Records) : Prop where
  sources : ∀ s ∈ r.sources, ∃ s' ∈ r'.sources, s'.asRegistered = s.asRegistered
  triggers : ∀ t ∈ r.triggers, t.status = .attributed → t ∈ r'.triggers
  attributions : ∀ a ∈ r.attributions, a ∈ r'.attributions

variable {r r' : Records} {source source' : Source} {trigger : Trigger} {delay : Int}
  {credited : AttributedTrigger} {report : EventReport}

theorem Backs.carry (h : r.Backs source trigger) (carries : r.Carries r')
    (stored : source' ∈ r'.sources) (same : source'.asRegistered = source.asRegistered) :
    r'.Backs source' trigger where
  source_mem := stored
  trigger_mem := carries.triggers trigger h.trigger_mem h.attributed
  attributed := h.attributed
  recorded := Attribution.of_congr same trigger ▸ carries.attributions _ h.recorded
  admits := h.admits.congr same

theorem BacksCredit.carry (h : r.BacksCredit source trigger credited) (carries : r.Carries r')
    (stored : source' ∈ r'.sources) (same : source'.asRegistered = source.asRegistered) :
    r'.BacksCredit source' trigger credited :=
  ⟨h.toBacks.carry carries stored same, selectDatum_congr same trigger ▸ h.selected⟩

theorem BacksReport.carry (h : r.BacksReport delay report source trigger) (carries : r.Carries r') :
    ∃ source' trigger, r'.BacksReport delay report source' trigger := by
  obtain ⟨source', stored, same⟩ := carries.sources source h.source_mem
  exact ⟨source', trigger, h.toBacksCredit.carry carries stored same,
    h.sourceId.trans (Source.id_congr same).symm, h.debugKey, h.due⟩

/-- What is backed stays so as long as no more is recorded. -/
theorem Backed.carry (h : Backed delay r) (carries : r.Carries r')
    (attributions : r'.attributions = r.attributions)
    (histories : ∀ source' ∈ r'.sources, ∀ spec, source'.reportSpec = some spec →
      spec.history = [] ∨ source' ∈ r.sources)
    (events : ∀ report' ∈ r'.eventReports, ∃ report ∈ r.eventReports, ∃ status,
      report' = { report with status })
    (aggregates : r'.aggregateReports = r.aggregateReports) : Backed delay r' where
  attributions a ha := by
    obtain ⟨source, trigger, backs, eq⟩ := h.attributions a (attributions ▸ ha)
    obtain ⟨source', stored, same⟩ := carries.sources source backs.source_mem
    exact ⟨source', trigger, backs.carry carries stored same,
      eq.trans (Attribution.of_congr same trigger).symm⟩
  once := attributions ▸ h.once
  histories source stored spec rules := by
    rcases histories source stored spec rules with none | before
    · simp [none]
    · obtain ⟨distinct, backed⟩ := h.histories source before spec rules
      refine ⟨distinct, fun credited hc => ?_⟩
      obtain ⟨trigger, backs⟩ := backed credited hc
      exact ⟨trigger, backs.carry carries stored rfl⟩
  events report' hr := by
    obtain ⟨report, before, status, rfl⟩ := events report' hr
    obtain ⟨source, trigger, backs⟩ := h.events report before
    obtain ⟨source', trigger, backs'⟩ := backs.carry carries
    exact ⟨source', trigger, backs'.toBacksCredit, backs'.sourceId, backs'.debugKey, backs'.due⟩
  aggregates report hr := by
    obtain ⟨source, trigger, backs, sourceId, triggerId⟩ := h.aggregates report (aggregates ▸ hr)
    obtain ⟨source', stored, same⟩ := carries.sources source backs.source_mem
    exact ⟨source', trigger, backs.carry carries stored same,
      sourceId.trans (Source.id_congr same).symm, triggerId⟩

theorem Carries.addSource (new : source.id ∉ r.sources.map Source.id) :
    r.Carries (r.addSource source) := by
  refine ⟨fun s hs => ⟨s, ?_, rfl⟩, fun _ ht _ => ht, fun _ ha => ha⟩
  rw [sources_addSource new]
  exact List.mem_append_left _ hs

theorem Carries.addTrigger (new : trigger.id ∉ r.triggers.map Trigger.id) :
    r.Carries (r.addTrigger trigger) := by
  refine ⟨fun s hs => ⟨s, hs, rfl⟩, fun t ht _ => ?_, fun _ ha => ha⟩
  rw [triggers_addTrigger new]
  exact List.mem_append_left _ ht

/-- A trigger that is pending is none of those attributed. -/
theorem id_ne_of_pending (ids : (r.triggers.map Trigger.id).Nodup) (stored : trigger ∈ r.triggers)
    (pending : trigger.status = .pending) {t : Trigger} (ht : t ∈ r.triggers)
    (attributed : t.status = .attributed) : t.id ≠ trigger.id := by
  intro same
  obtain rfl : t = trigger := List.inj_on_of_nodup_map ids ht stored same
  rw [pending] at attributed
  cases attributed

/-- The attributed triggers stay when a pending one is settled. -/
theorem mem_setTriggerStatus (ids : (r.triggers.map Trigger.id).Nodup)
    (stored : trigger ∈ r.triggers) (pending : trigger.status = .pending) (status : TriggerStatus)
    {t : Trigger} (ht : t ∈ r.triggers) (attributed : t.status = .attributed) :
    t ∈ (r.setTriggerStatus trigger.id status).triggers := by
  refine List.mem_map.2 ⟨t, ht, ?_⟩
  rw [if_neg (id_ne_of_pending ids stored pending ht attributed)]

theorem Carries.setTriggerStatus (ids : (r.triggers.map Trigger.id).Nodup)
    (stored : trigger ∈ r.triggers) (pending : trigger.status = .pending) (status : TriggerStatus) :
    r.Carries (r.setTriggerStatus trigger.id status) :=
  ⟨fun s hs => ⟨s, hs, rfl⟩, fun _ => mem_setTriggerStatus ids stored pending status,
    fun _ ha => ha⟩

end Records

/-! ## Reports of a history -/

/-- A desired report credits an entry of the history, carries no debug key but that of the latest,
and is due after the trigger and the delay. -/
theorem ReportSpec.of_mem_desired {spec : ReportSpec} {source : Source} {ctx : ReportContext}
    {report : EventReport} (h : report ∈ spec.desired source ctx) :
    report.sourceId = source.id ∧ report.credited ∈ spec.history ∧
      report.triggerDebugKey = spec.debugKeyFor ctx report.credited ∧
      report.credited.time ≤ report.reportTime - ctx.delay := by
  rw [desired_eq_map] at h
  obtain ⟨c, hc, rfl⟩ := List.mem_map.1 h
  obtain ⟨mem, -, window⟩ := of_mem_credits hc
  obtain ⟨-, inside⟩ := ReportWindows.mem_of_endFor? window
  have ended := c.rules.windows.windowEnd_le_reportTime source.eventTime ctx.delay ctx.now
    c.windowEnd
  refine ⟨rfl, mem, rfl, ?_⟩
  show c.trigger.time ≤ c.rules.windows.reportTime source.eventTime ctx.delay ctx.now
    c.windowEnd - ctx.delay
  omega

namespace Job

variable {cfg : JobConfig} {r : Records} {trigger : Trigger} {winner credited : Source}
  {deleted inserted : List EventReport}

namespace EventCredit

/-- The history of the winner stays, or the trigger joins it. -/
theorem history_cases (h : EventCredit cfg r winner trigger credited deleted inserted)
    {spec : ReportSpec} (rules : credited.reportSpec = some spec) :
    winner.reportSpec = some spec ∨ ∃ before datum, winner.reportSpec = some before ∧
      selectDatum winner trigger = some datum ∧
        spec = before.record (trigger.attributedWith datum) := by
  cases h with
  | nothing _ same _ _ => exact .inl (same ▸ rules)
  | @flexible datum before _ _ kind _ _ history _ _ selected =>
    exact .inr ⟨before, datum, kind, selected, Option.some.inj (rules.symm.trans history)⟩
  | plain _ _ _ _ none _ _ _ =>
    rw [none] at rules
    cases rules

/-- What is inserted is desired for the history of the winner, or is the report of the trigger. -/
theorem inserted_cases (h : EventCredit cfg r winner trigger credited deleted inserted)
    {report : EventReport} (mem : report ∈ inserted) :
    (∃ before datum, winner.reportSpec = some before ∧ selectDatum winner trigger = some datum ∧
      credited.reportSpec = some (before.record (trigger.attributedWith datum)) ∧
      report ∈ (before.record (trigger.attributedWith datum)).desired winner
        (reportContext cfg winner before trigger)) ∨
      ∃ datum reportTime, selectDatum winner trigger = some datum ∧
        standardReportTime winner trigger.time trigger.destinationType cfg.limits =
          some reportTime ∧
        report = EventReport.ofAttributed winner (trigger.attributedWith datum) reportTime
          (cfg.rates.rateOf winner) trigger.debugKey := by
  cases h with
  | nothing _ _ _ inserts =>
    rw [inserts] at mem
    cases mem
  | @flexible datum before _ _ kind _ _ history _ inserts selected =>
    rw [inserts, eventExchange, kind] at mem
    dsimp only at mem
    split at mem
    · next outcome =>
      obtain ⟨rfl, -, eq⟩ := ReportSpec.credit_eq_reports outcome
      exact .inl ⟨before, datum, kind, selected, history,
        (insert_sublist_desired eq).subset mem⟩
    · cases mem
    · cases mem
  | plain _ _ decided _ _ _ inserts selected =>
    rw [inserts, List.mem_singleton] at mem
    obtain ⟨reportTime, due, -, eq, -⟩ := decideStandardReport_eq_insert decided
    exact .inr ⟨_, reportTime, selected, due, mem.trans eq⟩

end EventCredit

theorem AggregateCredit.triggerId {aggregate : Option AggregateReport}
    (h : AggregateCredit cfg r winner trigger credited aggregate) {report : AggregateReport}
    (mem : report ∈ aggregate) : report.triggerId = trigger.id := by
  obtain ⟨delay, rfl⟩ := h.exists_eq mem
  rfl

/-! ## One attribution -/

section

variable {a : Award} {delay : Int}

theorem carries_apply (keyed : r.WellKeyed) (stored : trigger ∈ r.triggers)
    (pending : trigger.status = .pending) (valid : a.Valid trigger r) :
    r.Carries (a.apply trigger r) where
  sources _ := valid.exists_mem_apply keyed.sources
  triggers _ := Records.mem_setTriggerStatus keyed.triggers stored pending .attributed
  attributions _ := List.mem_append_left _

/-- The new attribution is on record, and the winner admits the trigger. -/
theorem backs_apply (stored : trigger ∈ r.triggers) (earned : a.Earned cfg trigger r) :
    (a.apply trigger r).Backs a.credited { trigger with status := .attributed } := by
  have admits : a.winner.Admits { trigger with status := .attributed } := by
    obtain ⟨-, enrollment, listed, started, unexpired⟩ :=
      Source.matchesTrigger_iff.1 earned.winner_matches
    exact ⟨earned.truthful, enrollment, listed, started, unexpired⟩
  refine ⟨List.mem_map.2 ⟨a.winner, earned.winner_mem, if_pos rfl⟩,
    List.mem_map.2 ⟨trigger, stored, if_pos rfl⟩, rfl, ?_, admits.congr earned.registered⟩
  rw [Attribution.of_congr earned.registered]
  exact List.mem_append_right _ List.mem_cons_self

/-- A pending trigger has not been attributed to anything. -/
theorem notMem_attributions_of_pending (h : r.Backed delay)
    (ids : (r.triggers.map Trigger.id).Nodup) (stored : trigger ∈ r.triggers)
    (pending : trigger.status = .pending) : trigger.id ∉ r.attributions.map (·.triggerId) := by
  intro mem
  obtain ⟨attribution, ha, same⟩ := List.mem_map.1 mem
  obtain ⟨source, t, backs, rfl⟩ := h.attributions attribution ha
  exact Records.id_ne_of_pending ids stored pending backs.trigger_mem backs.attributed same

/-- The trigger that joins a history is new to it. -/
theorem nodup_history_record (h : r.Backed delay) (ids : (r.triggers.map Trigger.id).Nodup)
    (stored : trigger ∈ r.triggers) (pending : trigger.status = .pending)
    (winner_mem : winner ∈ r.sources) {spec : ReportSpec} (rules : winner.reportSpec = some spec)
    (datum : EventTriggerDatum) :
    ((spec.record (trigger.attributedWith datum)).history.map (·.triggerId)).Nodup := by
  obtain ⟨distinct, backed⟩ := h.histories winner winner_mem spec rules
  show ((spec.history ++ [trigger.attributedWith datum]).map (·.triggerId)).Nodup
  rw [List.map_append]
  refine distinct.append (List.nodup_singleton _) fun id mem last => ?_
  obtain ⟨credited, hc, rfl⟩ := List.mem_map.1 mem
  obtain ⟨t, backs⟩ := backed credited hc
  obtain ⟨_, -, rfl⟩ := backs.selected
  exact Records.id_ne_of_pending ids stored pending backs.trigger_mem backs.attributed
    (List.mem_singleton.1 last)

section

variable (keyed : r.WellKeyed) (stored : trigger ∈ r.triggers) (pending : trigger.status = .pending)
  (earned : a.Earned cfg trigger r)

include keyed stored pending earned

/-- The history of the winner is backed, the trigger that joined it included. -/
theorem backed_history_apply (h : r.Backed delay) {spec : ReportSpec}
    (rules : a.credited.reportSpec = some spec) :
    (spec.history.map (·.triggerId)).Nodup ∧ ∀ credited ∈ spec.history, ∃ t,
      (a.apply trigger r).BacksCredit a.credited t credited := by
  have carries := carries_apply keyed stored pending earned.toValid
  have new := backs_apply stored earned
  have old {spec : ReportSpec} (rules : a.winner.reportSpec = some spec)
      {credited : AttributedTrigger} (hc : credited ∈ spec.history) :
      ∃ t, (a.apply trigger r).BacksCredit a.credited t credited := by
    obtain ⟨t, backs⟩ := (h.histories a.winner earned.winner_mem spec rules).2 credited hc
    exact ⟨t, backs.carry carries new.source_mem earned.registered⟩
  rcases earned.eventCredit.history_cases rules with same | ⟨before, datum, kind, selected, rfl⟩
  · exact ⟨(h.histories a.winner earned.winner_mem spec same).1, fun credited hc => old same hc⟩
  · refine ⟨nodup_history_record h keyed.triggers stored pending earned.winner_mem kind datum,
      fun credited hc => ?_⟩
    rcases List.mem_append.1 hc with mem | last
    · exact old kind mem
    · exact ⟨_, new, datum, (selectDatum_congr earned.registered _).trans selected,
        List.mem_singleton.1 last⟩

/-- What is inserted goes back to the new attribution, or to one that the history recorded. -/
theorem backed_inserted (h : r.Backed delay) (keyed' : (a.apply trigger r).WellKeyed)
    {report : EventReport} (mem : report ∈ a.inserted) :
    ∃ t, (a.apply trigger r).BacksReport cfg.limits.eventReportDelay report a.credited t := by
  have new := backs_apply stored earned
  have sourceId : report.sourceId = a.credited.id :=
    (earned.inserted report mem).trans (Source.id_congr earned.registered).symm
  rcases earned.eventCredit.inserted_cases mem with ⟨before, datum, -, -, history, desired⟩ |
    ⟨datum, reportTime, selected, due, rfl⟩
  · obtain ⟨-, joined, debugKey, due⟩ := ReportSpec.of_mem_desired desired
    obtain ⟨t, backs⟩ :=
      (backed_history_apply keyed stored pending earned h history).2 report.credited joined
    obtain ⟨credited_datum, selected, eq⟩ := backs.selected
    rw [eq] at debugKey due
    refine ⟨t, backs, sourceId, ?_, due⟩
    rw [debugKey]
    unfold ReportSpec.debugKeyFor
    split_ifs with latest
    · -- only the latest trigger has the debug key, and it is the one that is processed
      have same : trigger.id = t.id := by
        simpa [ReportSpec.record, Trigger.attributedWith] using latest
      obtain rfl : t = { trigger with status := .attributed } :=
        List.inj_on_of_nodup_map keyed'.triggers backs.trigger_mem new.trigger_mem same.symm
      exact .inr rfl
    · exact .inl rfl
  · exact ⟨_, ⟨new, datum, (selectDatum_congr earned.registered _).trans selected, rfl⟩, sourceId,
      .inr rfl, time_le_of_standardReportTime due⟩

/-- An attribution leaves everything backed. -/
theorem backed_apply (h : r.Backed cfg.limits.eventReportDelay)
    (keyed' : (a.apply trigger r).WellKeyed) :
    (a.apply trigger r).Backed cfg.limits.eventReportDelay := by
  have carries := carries_apply keyed stored pending earned.toValid
  have new := backs_apply stored earned
  refine ⟨fun attribution ha => ?_, ?_, fun source hs spec rules => ?_, fun report hr => ?_,
    fun report hr => ?_⟩
  · rcases List.mem_append.1 ha with before | last
    · obtain ⟨source, t, backs, eq⟩ := h.attributions attribution before
      obtain ⟨source', hs, same⟩ := carries.sources source backs.source_mem
      exact ⟨source', t, backs.carry carries hs same,
        eq.trans (Attribution.of_congr same t).symm⟩
    · refine ⟨a.credited, _, new, ?_⟩
      rw [Attribution.of_congr earned.registered]
      exact List.mem_singleton.1 last
  · show ((r.attributions ++ [Attribution.of a.winner trigger]).map (·.triggerId)).Nodup
    rw [List.map_append]
    refine h.once.append (List.nodup_singleton _) fun id mem last => ?_
    have own : id = trigger.id := List.mem_singleton.1 last
    exact notMem_attributions_of_pending h keyed.triggers stored pending (own ▸ mem)
  · rcases Award.of_mem_sources_apply hs with rfl | ⟨before, mem, same, kept⟩
    · exact backed_history_apply keyed stored pending earned h rules
    · obtain ⟨distinct, backed⟩ := h.histories before mem spec (kept ▸ rules)
      refine ⟨distinct, fun credited hc => ?_⟩
      obtain ⟨t, backs⟩ := backed credited hc
      exact ⟨t, backs.carry carries hs same⟩
  · rcases List.mem_append.1 hr with left | inserted
    · obtain ⟨source, t, backs⟩ := h.events report (List.mem_of_mem_filter left)
      exact backs.carry carries
    · exact ⟨a.credited, backed_inserted keyed stored pending earned h keyed' inserted⟩
  · rcases List.mem_append.1 hr with before | inserted
    · obtain ⟨source, t, backs, sourceId, triggerId⟩ := h.aggregates report before
      obtain ⟨source', hs, same⟩ := carries.sources source backs.source_mem
      exact ⟨source', t, backs.carry carries hs same,
        sourceId.trans (Source.id_congr same).symm, triggerId⟩
    · have mem := Option.mem_toList.1 inserted
      exact ⟨a.credited, _, new,
        (earned.aggregate report mem).trans (Source.id_congr earned.registered).symm,
        earned.aggregateCredit.triggerId mem⟩

end

end

/-! ## Whole lives -/

/-- Sources and triggers are registered once, as `P` and `Q` say. Everything else may happen. -/
def RegistersOnce (P : Source → Prop) (Q : Trigger → Prop) (r : Records) : JobEvent → Prop
  | .addSource source => source.id ∉ r.sources.map Source.id ∧ P source
  | .addTrigger trigger => trigger.id ∉ r.triggers.map Trigger.id ∧ Q trigger
  | .setReportStatus .. | .process _ => True

/-- A source whose history, if it has one, is empty. -/
def Unrecorded (source : Source) : Prop :=
  ∀ spec, source.reportSpec = some spec → spec.history = []

theorem Life.backed {P : Source → Prop} {Q : Trigger → Prop}
    (fresh : ∀ source, P source → Unrecorded source)
    (h : Life cfg (· = {}) (RegistersOnce P Q) r) :
    r.WellKeyed ∧ r.Backed cfg.limits.eventReportDelay := by
  refine h.outcomes _ ?_ ?_ ?_ ?_ ?_ ?_
  · rintro r rfl
    exact ⟨Records.wellKeyed_empty, by simp, List.nodup_nil, by simp, by simp, by simp⟩
  · rintro r source - inv ⟨new, registers⟩
    refine inv.carry (.addSource new) rfl (fun s hs spec rules => ?_)
      (fun report hr => ⟨report, hr, report.status, rfl⟩) rfl
    rw [Records.sources_addSource new, List.mem_append, List.mem_singleton] at hs
    rcases hs with before | rfl
    · exact .inr before
    · exact .inl (fresh s registers spec rules)
  · rintro r trigger - inv ⟨new, -⟩
    exact inv.carry (.addTrigger new) rfl (fun s hs _ _ => .inr hs)
      (fun report hr => ⟨report, hr, report.status, rfl⟩) rfl
  · intro r id status _ inv _
    refine inv.carry ⟨fun s hs => ⟨s, hs, rfl⟩, fun t ht _ => ht, fun _ ha => ha⟩ rfl
      (fun s hs _ _ => .inr hs) (fun report' hr => ?_) rfl
    obtain ⟨report, before, rfl⟩ := List.mem_map.1 hr
    refine ⟨report, before, ?_⟩
    split_ifs
    · exact ⟨status, rfl⟩
    · exact ⟨report.status, rfl⟩
  · intro r trigger keyed inv stored pending
    exact inv.carry (.setTriggerStatus keyed.triggers stored pending .ignored) rfl
      (fun s hs _ _ => .inr hs) (fun report hr => ⟨report, hr, report.status, rfl⟩) rfl
  · exact fun r trigger a keyed inv stored pending earned keyed' =>
      backed_apply keyed stored pending earned inv keyed'

/-- When triggers are registered as pending, each that is attributed has an attribution. -/
theorem Life.recorded {P : Source → Prop}
    (h : Life cfg (· = {}) (RegistersOnce P (·.status = .pending)) r) :
    ∀ t ∈ r.triggers, t.status = .attributed → t.id ∈ r.attributions.map (·.triggerId) := by
  refine (h.outcomes (fun r => ∀ t ∈ r.triggers, t.status = .attributed →
    t.id ∈ r.attributions.map (·.triggerId)) ?_ ?_ ?_ ?_ ?_ ?_).2
  · rintro r rfl
    exact ⟨Records.wellKeyed_empty, by simp⟩
  · exact fun r source _ inv _ => inv
  · rintro r trigger - inv ⟨new, pending⟩ t ht attributed
    rw [Records.triggers_addTrigger new, List.mem_append, List.mem_singleton] at ht
    rcases ht with before | rfl
    · exact inv t before attributed
    · rw [pending] at attributed
      cases attributed
  · exact fun r id status _ inv _ => inv
  · intro r trigger _ inv _ _ t' ht' attributed
    obtain ⟨t, ht, rfl⟩ := List.mem_map.1 ht'
    split_ifs at attributed ⊢ with same
    exact inv t ht attributed
  · intro r trigger a _ inv _ _ _ _ t' ht' attributed
    obtain ⟨t, ht, rfl⟩ := List.mem_map.1 ht'
    show _ ∈ (r.attributions ++ [Attribution.of a.winner trigger]).map (·.triggerId)
    rw [List.map_append, List.mem_append]
    split_ifs at attributed ⊢ with same
    · exact .inr (List.mem_singleton.2 same)
    · exact .inl (inv t ht attributed)

/-- The sample source with a single report to give. -/
def sampleFlexible : Source := { Sample.source with reportSpec := some Sample.flexibleSpec }

/-- A trigger that the flexible source ranks by priority. -/
def sampleRanked (id : String) (data : UInt64) (priority : Int) : Trigger :=
  { Sample.trigger with id, eventData := [{ data, priority }] }

end Job

end AttributionReporting
