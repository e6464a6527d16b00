import AttributionReporting.Proofs.Job.Batch
import AttributionReporting.Proofs.Job.RateLimit
import AttributionReporting.Proofs.Job.Sourcewise

/-!
# Statuses come to an end

A run of the job processes triggers, one at a time or all that are pending, while others are
registered (`Run`). Whatever it does, a trigger only goes from pending to attributed or ignored and
a source only from active to ignored, and an ignored source is left as it is, with all that belongs
to it (`Records.Onward`). A batch without failures leaves no trigger pending, so a second one finds
nothing to do (`statuses_terminal`).
-/

namespace AttributionReporting

/-- What may become of a trigger. -/
def Trigger.Settles (t t' : Trigger) : Prop :=
  t' = t ∨ t.status = .pending ∧
    (t' = { t with status := .attributed } ∨ t' = { t with status := .ignored })

/-- What may become of a source. -/
structure Source.Settles (s s' : Source) : Prop where
  registered : s'.asRegistered = s.asRegistered
  status : s'.status = s.status ∨ s.status = .active ∧ s'.status = .ignored

namespace Records

/-- The attributions to a source. -/
def attributionsOf (r : Records) (sourceId : String) : List Attribution :=
  r.attributions.filter (·.sourceId == sourceId)

/-- What may become of records: those that are there stay and settle, and what has been ignored is
over. -/
structure Onward (before after : Records) : Prop where
  triggers : ∀ t ∈ before.triggers, ∃ t' ∈ after.triggers, t.Settles t'
  sources : ∀ s ∈ before.sources, ∃ s' ∈ after.sources, s.Settles s'
  /-- An ignored source keeps its contributions, dedup keys and history, and gets nothing new. -/
  ignored : ∀ s ∈ before.sources, s.status = .ignored → s ∈ after.sources ∧
    after.eventReportsOf s.id = before.eventReportsOf s.id ∧
    after.aggregateReportsOf s.id = before.aggregateReportsOf s.id ∧
    after.attributionsOf s.id = before.attributionsOf s.id

end Records

theorem Trigger.Settles.trans {t t' t'' : Trigger} (first : t.Settles t')
    (second : t'.Settles t'') : t.Settles t'' := by
  rcases first with rfl | ⟨pending, rfl | rfl⟩
  · exact second
  · rcases second with rfl | ⟨impossible, -⟩
    · exact .inr ⟨pending, .inl rfl⟩
    · cases impossible
  · rcases second with rfl | ⟨impossible, -⟩
    · exact .inr ⟨pending, .inr rfl⟩
    · cases impossible

namespace Source.Settles

variable {s s' s'' : Source}

theorem refl (s : Source) : s.Settles s := ⟨rfl, .inl rfl⟩

theorem trans (first : s.Settles s') (second : s'.Settles s'') : s.Settles s'' := by
  refine ⟨second.registered.trans first.registered, ?_⟩
  rcases first.status with same | ⟨active, ignored⟩
  · exact same ▸ second.status
  · rcases second.status with same | ⟨again, -⟩
    · exact .inr ⟨active, same.trans ignored⟩
    · rw [ignored] at again
      cases again

end Source.Settles

namespace Records.Onward

variable {r r' r'' : Records}

theorem refl (r : Records) : r.Onward r where
  triggers t ht := ⟨t, ht, .inl rfl⟩
  sources s hs := ⟨s, hs, .refl s⟩
  ignored _ hs _ := ⟨hs, rfl, rfl, rfl⟩

theorem trans (first : r.Onward r') (second : r'.Onward r'') : r.Onward r'' where
  triggers t ht := by
    obtain ⟨t', ht', settles⟩ := first.triggers t ht
    obtain ⟨t'', ht'', settles'⟩ := second.triggers t' ht'
    exact ⟨t'', ht'', settles.trans settles'⟩
  sources s hs := by
    obtain ⟨s', hs', settles⟩ := first.sources s hs
    obtain ⟨s'', hs'', settles'⟩ := second.sources s' hs'
    exact ⟨s'', hs'', settles.trans settles'⟩
  ignored s hs out := by
    obtain ⟨hs', events, aggregates, attributions⟩ := first.ignored s hs out
    obtain ⟨hs'', events', aggregates', attributions'⟩ := second.ignored s hs' out
    exact ⟨hs'', events'.trans events, aggregates'.trans aggregates,
      attributions'.trans attributions⟩

theorem addSource {source : Source} (new : source.id ∉ r.sources.map Source.id) :
    r.Onward (r.addSource source) := by
  have stays {s : Source} (hs : s ∈ r.sources) : s ∈ (r.addSource source).sources := by
    rw [sources_addSource new]
    exact List.mem_append_left _ hs
  exact ⟨(refl r).triggers, fun s hs => ⟨s, stays hs, .refl s⟩,
    fun _ hs _ => ⟨stays hs, rfl, rfl, rfl⟩⟩

theorem addTrigger {trigger : Trigger} (new : trigger.id ∉ r.triggers.map Trigger.id) :
    r.Onward (r.addTrigger trigger) := by
  refine ⟨fun t ht => ⟨t, ?_, .inl rfl⟩, (refl r).sources, (refl r).ignored⟩
  rw [triggers_addTrigger new]
  exact List.mem_append_left _ ht

/-- A pending trigger gets its last status. -/
theorem of_mem_triggers {t trigger : Trigger} {status : TriggerStatus}
    (ids : (r.triggers.map Trigger.id).Nodup) (stored : trigger ∈ r.triggers)
    (pending : trigger.status = .pending) (last : status = .attributed ∨ status = .ignored)
    (ht : t ∈ r.triggers) :
    ∃ t' ∈ (r.setTriggerStatus trigger.id status).triggers, t.Settles t' := by
  refine ⟨_, List.mem_map_of_mem ht, ?_⟩
  split_ifs with same
  · obtain rfl : t = trigger := List.inj_on_of_nodup_map ids ht stored same
    rcases last with rfl | rfl
    · exact .inr ⟨pending, .inl rfl⟩
    · exact .inr ⟨pending, .inr rfl⟩
  · exact .inl rfl

end Records.Onward

namespace Job

variable {cfg : JobConfig} {r r' : Records} {trigger : Trigger} {id : String}
  {s s' s₀ : JobState Store}

/-- An attribution is a way onward: the winner is active, so what has been ignored takes no part. -/
theorem onward_apply {a : Award} (keyed : r.WellKeyed) (stored : trigger ∈ r.triggers)
    (pending : trigger.status = .pending) (earned : a.Earned cfg trigger r) :
    r.Onward (a.apply trigger r) where
  triggers t ht := Records.Onward.of_mem_triggers keyed.triggers stored pending (.inl rfl) ht
  sources s hs := by
    refine ⟨_, List.mem_map_of_mem hs, ?_⟩
    split_ifs with won lost
    · obtain rfl : s = a.winner :=
        List.inj_on_of_nodup_map keyed.sources hs earned.winner_mem won
      exact ⟨earned.registered, .inl earned.status⟩
    · have active : s.status = .active := (Source.matchesTrigger_iff.1 lost).1
      exact ⟨rfl, .inr ⟨active, rfl⟩⟩
    · exact .refl s
  ignored s hs out := by
    have inactive : s.status ≠ .active := by simp [out]
    have other : s.id ≠ a.winner.id := by
      intro won
      obtain rfl : s = a.winner :=
        List.inj_on_of_nodup_map keyed.sources hs earned.winner_mem won
      exact inactive (Source.matchesTrigger_iff.1 earned.winner_matches).1
    have unmatched : ¬ s.matchesTrigger trigger = true :=
      fun lost => inactive (Source.matchesTrigger_iff.1 lost).1
    refine ⟨List.mem_map.2 ⟨s, hs, by rw [if_neg other, if_neg unmatched]⟩,
      earned.eventReports_of_ne keyed.eventReports other, earned.aggregateReports_of_ne other, ?_⟩
    have elsewhere : [Attribution.of a.winner trigger].filter (·.sourceId == s.id) = [] :=
      List.filter_eq_nil_iff.2 fun attribution mem same => by
        rw [List.mem_singleton.1 mem] at same
        exact other (beq_iff_eq.1 same).symm
    show (r.attributions ++ [Attribution.of a.winner trigger]).filter _ = _
    rw [List.filter_append, elsewhere, List.append_nil]
    rfl

theorem Attempted.onward (keyed : r.WellKeyed) (h : Attempted cfg id r r') : r.Onward r' := by
  rcases h.outcomes keyed with rfl | ⟨trigger, found, pending, -, rfl | ⟨a, earned, rfl⟩⟩
  · exact .refl r'
  · exact ⟨fun t ht => Records.Onward.of_mem_triggers keyed.triggers
      (List.mem_of_find?_eq_some found) pending (.inr rfl) ht, (Records.Onward.refl r).sources,
      (Records.Onward.refl r).ignored⟩
  · exact onward_apply keyed (List.mem_of_find?_eq_some found) pending earned

/-! ## Runs -/

/-- A run of the job: triggers are processed one at a time or in batches, and what has not been
there before is registered. -/
inductive Run (cfg : JobConfig) (s : JobState Store) : JobState Store → Prop
  | refl : Run cfg s s
  | event {t : JobState Store} {event : JobEvent} (before : Run cfg s t)
    (fresh : Fresh t.store.records event) : Run cfg s (step cfg t event)
  | batch {t t' : JobState Store} {summary : JobSummary} (before : Run cfg s t)
    (ran : processPending Store.backend cfg t = .ok summary t') : Run cfg s t'

/-- A state of the job between two events. -/
structure Ready (s : JobState Store) : Prop where
  reachable : s.store.Reachable
  closed : s.store.snapshot = none

theorem Ready.keyed (h : Ready s) : s.store.records.WellKeyed := h.reachable.wellKeyed.records

theorem Ready.processed (h : Ready s) (id : String) : Ready (step cfg s (.process id)) := by
  rcases ended : process Store.backend cfg id s with ⟨outcome, s'⟩ | ⟨e, s'⟩
  · have same : step cfg s (.process id) = s' := by simp only [step, ended]
    rw [same]
    exact ⟨reachable_of_process h.closed ended h.reachable,
      (effect_of_process h.closed ended h.keyed).2⟩
  · have same : (step cfg s (.process id)).store = s.store := by
      rcases process_cases cfg id h.closed with ⟨e, draws, failed⟩ | ⟨_, _, -, -, ok⟩
      · simp only [step, failed]
      · rw [ok] at ended
        cases ended
    exact ⟨same ▸ h.reachable, same ▸ h.closed⟩

theorem Ready.next (h : Ready s) {event : JobEvent} (fresh : Fresh s.store.records event) :
    Ready (step cfg s event) := by
  cases event with
  | addSource source => exact ⟨.ok (c := .addSource source) h.reachable rfl, h.closed⟩
  | addTrigger trigger => exact ⟨.ok (c := .addTrigger trigger) h.reachable rfl, h.closed⟩
  | setReportStatus id status => exact fresh.elim
  | process id => exact h.processed id

theorem onward_step (h : Ready s) {event : JobEvent} (fresh : Fresh s.store.records event) :
    s.store.records.Onward (step cfg s event).store.records := by
  cases event with
  | addSource source => exact .addSource fresh
  | addTrigger trigger => exact .addTrigger fresh
  | setReportStatus id status => exact fresh.elim
  | process id => exact (attempted_process h.closed id).onward h.keyed

/-- What single triggers keep, attempts at many keep. -/
theorem attempts_invariant {inv : JobState Store → Prop}
    (keeps : ∀ s id, inv s → inv (step cfg s (.process id))) {ids : List String}
    {results : List (String × TriggerResult)} (start : inv s)
    (ran : attempts Store.backend cfg ids s = .ok results s') : inv s' := by
  induction ids generalizing s results with
  | nil =>
    cases ran
    exact start
  | cons id rest ih =>
    obtain ⟨result, s₁, others, first, others_ran, -⟩ := attempts_cons_eq_ok ran
    exact ih (step_process_of_attempt first ▸ keeps s id start) others_ran

/-- On the store itself a batch is a run of attempts. -/
theorem processPending_total (cfg : JobConfig) (s : JobState Store) :
    ∃ results s', attempts Store.backend cfg s.store.records.pendingIds s = .ok results s' ∧
      processPending Store.backend cfg s = .ok (summarize results) s' := by
  obtain ⟨results, s', ran⟩ := attempts_total Store.backend cfg s.store.records.pendingIds s
  exact ⟨results, s', ran, processPending_of_attempts ran⟩

theorem attempts_of_processPending {summary : JobSummary}
    (h : processPending Store.backend cfg s = .ok summary s') :
    ∃ results, attempts Store.backend cfg s.store.records.pendingIds s = .ok results s' ∧
      summary = summarize results := by
  obtain ⟨results, t, ran, batch⟩ := processPending_total cfg s
  rw [batch] at h
  cases h
  exact ⟨results, ran, rfl⟩

/-- What events keep holds all through a run. -/
theorem Run.invariant (inv : JobState Store → Prop)
    (keeps : ∀ s event, inv s → Fresh s.store.records event → inv (step cfg s event))
    (run : Run cfg s s') (start : inv s) : inv s' := by
  induction run with
  | refl => exact start
  | event _ fresh ih => exact keeps _ _ ih fresh
  | batch _ ran ih =>
    obtain ⟨results, ran, -⟩ := attempts_of_processPending ran
    exact attempts_invariant (fun s id inv => keeps s (.process id) inv trivial) ih ran

theorem Run.ready (run : Run cfg s s') (h : Ready s) : Ready s' :=
  run.invariant Ready (fun _ _ ready fresh => ready.next fresh) h

theorem Run.onward (run : Run cfg s s') (h : Ready s) :
    s.store.records.Onward s'.store.records := by
  have both := run.invariant (fun t => Ready t ∧ s.store.records.Onward t.store.records)
    (fun t event ⟨ready, onward⟩ fresh =>
      ⟨ready.next fresh, onward.trans (onward_step ready fresh)⟩) ⟨h, .refl _⟩
  exact both.2

/-- Where nothing is pending, a batch has nothing to do. -/
theorem processPending_of_none (none_pending : s.store.records.pendingIds = []) :
    processPending Store.backend cfg s = .ok {} s := by
  obtain ⟨results, s', ran, batch⟩ := processPending_total cfg s
  rw [none_pending] at ran
  cases ran
  exact batch

/-- A batch in which nothing fails leaves nothing pending. -/
theorem pendingIds_of_processPending {summary : JobSummary} (h : Ready s)
    (batch : processPending Store.backend cfg s = .ok summary s')
    (none_failed : summary.failed = 0) : s'.store.records.pendingIds = [] := by
  obtain ⟨results, ran, rfl⟩ := attempts_of_processPending batch
  obtain ⟨-, ends⟩ := batchEnd_of_attempts Backend.wraps_self
    (fun step => works_self (Store.backend.transact step)) h.reachable h.closed ran
  rw [summarize_eq] at none_failed
  exact ends.pending.trans (List.eq_nil_of_length_eq_zero none_failed)

/-- Between any two states of a run, statuses only come to an end and what has been ignored stays as
it was. At any time, a batch in which nothing fails leaves nothing pending, and the next one returns
zeros and changes nothing. -/
theorem statuses_terminal (reachable : s₀.store.Reachable) (closed : s₀.store.snapshot = none)
    (before : Run cfg s₀ s) (run : Run cfg s s') :
    s.store.records.Onward s'.store.records ∧
      ∃ summary t, processPending Store.backend cfg s' = .ok summary t ∧
        (summary.failed = 0 → (∀ trigger ∈ t.store.records.triggers, trigger.status ≠ .pending) ∧
          processPending Store.backend cfg t = .ok {} t) := by
  have ready : Ready s := before.ready ⟨reachable, closed⟩
  have ready' : Ready s' := run.ready ready
  refine ⟨run.onward ready, ?_⟩
  obtain ⟨results, t, -, ran⟩ := processPending_total cfg s'
  refine ⟨_, t, ran, fun none_failed => ?_⟩
  have none_pending := pendingIds_of_processPending ready' ran none_failed
  refine ⟨fun trigger ht pending => ?_, processPending_of_none none_pending⟩
  have mem : trigger.id ∈ t.store.records.pendingIds :=
    List.mem_map_of_mem (List.mem_filter.2 ⟨ht, beq_iff_eq.2 pending⟩)
  rw [none_pending] at mem
  cases mem

/-- Two sources that compete for two triggers. -/
def sampleCompetition : JobState Store :=
  [.addSource Sample.source, .addSource { Sample.source with id := "source2", priority := 1 },
    .addTrigger (sampleTrigger "trigger1"), .addTrigger (sampleTrigger "trigger2")].foldl
    (step sampleConfig) ⟨{}, []⟩

theorem run_sampleCompetition : Run sampleConfig ⟨{}, []⟩ sampleCompetition := by
  simp only [sampleCompetition, List.foldl_cons, List.foldl_nil]
  refine .event (.event (.event (.event .refl ?_) ?_) ?_) ?_
  · exact List.not_mem_nil
  · show "source2" ∉ ["source1"]
    decide
  · exact List.not_mem_nil
  · show "trigger2" ∉ ["trigger1"]
    decide

/-- The first trigger takes one of the sources out, and a batch ends the other trigger. -/
theorem statuses_terminal_sample :
    (step sampleConfig sampleCompetition (.process "trigger1")).store.records.sources.map
        (·.status) = [.ignored, .active] ∧
      sampleCompetition.store.records.Onward
        (step sampleConfig sampleCompetition (.process "trigger1")).store.records ∧
      ∃ summary t, processPending Store.backend sampleConfig
          (step sampleConfig sampleCompetition (.process "trigger1")) = .ok summary t ∧
        (summary.failed = 0 → (∀ trigger ∈ t.store.records.triggers, trigger.status ≠ .pending) ∧
          processPending Store.backend sampleConfig t = .ok {} t) :=
  ⟨by cbv, statuses_terminal .empty rfl run_sampleCompetition (.event .refl trivial)⟩

end Job

end AttributionReporting
