import AttributionReporting.Job
import AttributionReporting.Proofs.Aggregate.Decision
import AttributionReporting.Proofs.Selection
import AttributionReporting.Proofs.Store.Effects
import Mathlib.Tactic.SplitIfs

/-!
# What attributing a trigger does

On the store in memory a step of the job reads first and writes afterwards: no answer that it gets
depends on what it has written. So it follows a plan that is made from the stored records before the
step begins (`Plan`, `Follows`), and `process_cases` says all that processing a trigger can do:
either the records end up as they were, or every write of the plan is performed.
-/

namespace AttributionReporting

/-- The store with other records. -/
def Store.withRecords (store : Store) (records : Records) : Store := { store with records }

namespace Job

variable {α β : Type} {cfg : JobConfig} {s : JobState Store}

/-! ## Following a plan -/

theorem performAll_cons (w : Write) (writes : List Write) (r : Records) :
    performAll (w :: writes) r =
      match w.perform r with
      | .ok _ r => performAll writes r
      | .error e r => .error e r := by
  unfold performAll
  rw [forM_cons_eq]
  cases w.perform r <;> rfl

theorem performAll_append (first second : List Write) (r : Records) :
    performAll (first ++ second) r =
      match performAll first r with
      | .ok _ r => performAll second r
      | .error e r => .error e r := by
  induction first generalizing r with
  | nil => rfl
  | cons w rest ih =>
    rw [List.cons_append, performAll_cons, performAll_cons]
    cases w.perform r with
    | ok _ r => exact ih r
    | error e r => rfl

theorem bind_eq {σ : Type} (x : Step σ α) (f : α → Step σ β) (s : JobState σ) :
    (x >>= f) s =
      match x s with
      | .ok a s => f a s
      | .error e s => .error e s := by
  show EStateM.bind _ _ s = _
  unfold EStateM.bind
  cases x s <;> rfl

/-- What a step is going to answer, write and leave in the generator. -/
structure Plan (α : Type) where
  value : α
  writes : List Write
  draws : Draws

/-- A step that performs the writes of a plan, up to the first that fails. -/
def Follows (step : Step Store α) (s : JobState Store) (plan : Plan α) : Prop :=
  match performAll plan.writes s.store.records with
  | .ok _ r => step s = .ok plan.value ⟨s.store.withRecords r, plan.draws⟩
  | .error e r => ∃ draws, step s = .error e ⟨s.store.withRecords r, draws⟩

theorem follows_pure (a : α) : Follows (pure a) s ⟨a, [], s.draws⟩ := rfl

theorem follows_ask {query : Query α} {a : α} (h : query.answer s.store.records = .ok a) :
    Follows (ask Store.backend query) s ⟨a, [], s.draws⟩ := by
  show ask Store.backend query s = .ok a s
  simp only [ask, call, Store.backend, h]

theorem follows_draw (f : Draws → α × Draws) :
    Follows (draw f) s ⟨(f s.draws).1, [], (f s.draws).2⟩ := rfl

theorem follows_write (writes : List Write) :
    Follows (write Store.backend writes) s ⟨(), writes, s.draws⟩ := by
  induction writes generalizing s with
  | nil => rfl
  | cons w rest ih =>
    have step : write Store.backend (w :: rest) s =
        match w.perform s.store.records with
        | .ok _ r => write Store.backend rest ⟨s.store.withRecords r, s.draws⟩
        | .error e r => .error e ⟨s.store.withRecords r, s.draws⟩ := by
      show (call (Store.backend.write w) >>= fun _ => write Store.backend rest) s = _
      rw [bind_eq]
      simp only [call, Store.backend, Store.change]
      cases w.perform s.store.records <;> rfl
    unfold Follows
    rw [performAll_cons, step]
    cases w.perform s.store.records with
    | ok _ r => exact @ih ⟨s.store.withRecords r, s.draws⟩
    | error e r => exact ⟨s.draws, rfl⟩

/-- One plan after the other, where the second is made knowing what the first one leaves. -/
theorem Follows.bind {x : Step Store α} {f : α → Step Store β} {plan : Plan α} {b : β}
    {writes : List Write} {draws : Draws} (first : Follows x s plan)
    (second : ∀ r, performAll plan.writes s.store.records = .ok () r →
      Follows (f plan.value) ⟨s.store.withRecords r, plan.draws⟩ ⟨b, writes, draws⟩) :
    Follows (x >>= f) s ⟨b, plan.writes ++ writes, draws⟩ := by
  unfold Follows at first ⊢
  rw [performAll_append, bind_eq]
  rcases h : performAll plan.writes s.store.records with ⟨⟨⟩, r⟩ | ⟨e, r⟩
  · rw [h] at first
    dsimp only at first ⊢
    rw [first]
    exact second r h
  · rw [h] at first
    obtain ⟨draws', eq⟩ := first
    exact ⟨draws', by rw [eq]⟩

theorem follows_write_pure (writes : List Write) (a : α) :
    Follows (write Store.backend writes >>= fun _ => pure a) s ⟨a, writes, s.draws⟩ := by
  have all : Follows (write Store.backend writes >>= fun _ => pure a) s
      ⟨a, writes ++ [], s.draws⟩ :=
    (follows_write writes).bind fun _ _ => follows_pure a
  rwa [List.append_nil] at all

/-- What is read before the first write makes the plan. -/
theorem Follows.read_bind {x : Step Store α} {f : α → Step Store β} {a : α} {draws : Draws}
    {plan : Plan β} (first : Follows x s ⟨a, [], draws⟩)
    (next : Follows (f a) ⟨s.store, draws⟩ plan) : Follows (x >>= f) s plan :=
  first.bind fun r same => by
    cases same
    exact next

theorem Follows.ask_bind {query : Query α} {a : α} {f : α → Step Store β} {plan : Plan β}
    (h : query.answer s.store.records = .ok a) (next : Follows (f a) s plan) :
    Follows (ask Store.backend query >>= f) s plan :=
  (follows_ask h).read_bind next

/-! ## The plans of the job -/

/-- The writes of the event path, if the trigger counts as attributed by it. -/
def eventWrites (cfg : JobConfig) (r : Records) (source : Source) (trigger : Trigger) :
    Option (List Write) :=
  match selectDatum source trigger with
  | none => none
  | some datum =>
    if LimitStatus.check (r.eventReportCount trigger.destination)
        cfg.limits.maxEventReportsPerDestination.toNat = .exceeded then none
    else planEvent cfg source trigger datum (r.eventReports.filter (·.sourceId == source.id))

/-- The writes of the aggregate path, if there is an aggregate report. -/
def aggregateWrites (cfg : JobConfig) (r : Records) (source : Source) (trigger : Trigger)
    (draws : Draws) : Option (List Write) × Draws :=
  match decideAggregateReport source trigger cfg.limits draws with
  | (.drop _, draws) => (none, draws)
  | (.insert report dedupKey, draws) =>
    if LimitStatus.check (r.aggregateReportCount trigger.destination)
        cfg.limits.maxAggregateReportsPerDestination.toNat = .exceeded then (none, draws)
    else (some (planAggregate source report dedupKey), draws)

/-- Whether a limit keeps a trigger from being attributed to a source. -/
def isBlocked (cfg : JobConfig) (r : Records) (source : Source) (trigger : Trigger) : Bool :=
  let windowStart := cfg.limits.windowStart trigger.time
  LimitStatus.check (r.attributionCount source.publisher trigger.destination trigger.enrollmentId
      windowStart trigger.time) cfg.limits.maxAttributions.toNat = .exceeded ||
    LimitStatus.check (r.enrollmentCount source.publisher trigger.destination trigger.enrollmentId
      windowStart trigger.time) cfg.limits.maxEnrollments.toNat = .exceeded

def ignorePlan (trigger : Trigger) (draws : Draws) : Plan TriggerOutcome :=
  ⟨.ignored, [.setTriggerStatus [trigger.id] .ignored], draws⟩

/-- How a trigger ends that led to a report or did not. -/
def closingPlan (attributed : Bool) (source : Source) (losers : List Source) (trigger : Trigger)
    (draws : Draws) : Plan TriggerOutcome :=
  if attributed then ⟨.attributed, planAttribution source losers trigger, draws⟩
  else ignorePlan trigger draws

def creditPlan (cfg : JobConfig) (r : Records) (source : Source) (losers : List Source)
    (trigger : Trigger) (draws : Draws) : Plan TriggerOutcome :=
  let event := eventWrites cfg r source trigger
  let aggregate := aggregateWrites cfg r source trigger draws
  let closing := closingPlan (event.isSome || aggregate.1.isSome) source losers trigger aggregate.2
  { closing with writes := event.getD [] ++ (aggregate.1.getD [] ++ closing.writes) }

def pendingPlan (cfg : JobConfig) (r : Records) (trigger : Trigger) (draws : Draws) :
    Plan TriggerOutcome :=
  match selectSource (r.sources.filter (·.matchesTrigger trigger)) trigger with
  | none => ignorePlan trigger draws
  | some (source, losers) =>
    if clausesPass source.matchingData trigger.filters trigger.notFilters then
      if isBlocked cfg r source trigger ∨ source.mode ≠ .truthfully then ignorePlan trigger draws
      else creditPlan cfg r source losers trigger draws
    else ignorePlan trigger draws

/-- What the job is going to do with a stored trigger. -/
def triggerPlan (cfg : JobConfig) (r : Records) (trigger : Trigger) (draws : Draws) :
    Plan TriggerOutcome :=
  if trigger.status ≠ .pending then ⟨.skipped, [], draws⟩ else pendingPlan cfg r trigger draws

/-! ## The job follows them -/

variable {source : Source} {trigger : Trigger}

theorem follows_ignore :
    Follows (ignore Store.backend trigger) s (ignorePlan trigger s.draws) :=
  follows_write_pure [.setTriggerStatus [trigger.id] .ignored] TriggerOutcome.ignored

theorem follows_eventPath :
    Follows (eventPath Store.backend cfg source trigger) s
      ⟨(eventWrites cfg s.store.records source trigger).isSome,
        (eventWrites cfg s.store.records source trigger).getD [], s.draws⟩ := by
  unfold eventPath eventWrites
  cases selectDatum source trigger with
  | none => exact follows_pure false
  | some datum =>
    refine Follows.ask_bind rfl ?_
    dsimp only
    split_ifs with full
    · exact follows_pure false
    · refine Follows.ask_bind rfl ?_
      cases planEvent cfg source trigger datum _ with
      | none => exact follows_pure false
      | some writes =>
        exact follows_write_pure writes true

theorem follows_aggregatePath :
    Follows (aggregatePath Store.backend cfg source trigger) s
      ⟨(aggregateWrites cfg s.store.records source trigger s.draws).1.isSome,
        (aggregateWrites cfg s.store.records source trigger s.draws).1.getD [],
        (aggregateWrites cfg s.store.records source trigger s.draws).2⟩ := by
  unfold aggregatePath aggregateWrites
  refine (follows_draw _).read_bind ?_
  rcases decideAggregateReport source trigger cfg.limits s.draws with ⟨decision, draws⟩
  cases decision with
  | drop reason => exact follows_pure false
  | insert report dedupKey =>
    refine Follows.ask_bind rfl ?_
    dsimp only
    split_ifs with full
    · exact follows_pure false
    · exact follows_write_pure (planAggregate source report dedupKey) true

theorem follows_limitReached :
    Follows (limitReached Store.backend cfg source trigger) s
      ⟨isBlocked cfg s.store.records source trigger, [], s.draws⟩ := by
  unfold limitReached isBlocked
  refine Follows.ask_bind rfl ?_
  split_ifs with tooMany
  · simp only [tooMany, decide_true, Bool.true_or]
    exact follows_pure true
  · refine Follows.ask_bind rfl ?_
    simp only [tooMany, decide_false, Bool.false_or]
    exact follows_pure _

/-- The three ways in which the event path leads to writes. -/
theorem planEvent_cases {datum : EventTriggerDatum} {existing : List EventReport}
    {writes : List Write} (h : planEvent cfg source trigger datum existing = some writes) :
    (∃ spec next, source.reportSpec = some spec ∧
      spec.credit source (trigger.attributedWith datum) existing
        (reportContext cfg source spec trigger) = .historyOnly next ∧
          writes = [.setReportSpec source.id (some next)]) ∨
      (∃ spec next insert delete, source.reportSpec = some spec ∧
        spec.credit source (trigger.attributedWith datum) existing
          (reportContext cfg source spec trigger) = .reports next insert delete ∧
            writes = delete.map (fun r => .deleteEventReport r.id) ++
              insert.map .insertEventReport ++ [.setReportSpec source.id (some next)]) ∨
        ∃ report replaces, source.reportSpec = none ∧
          decideStandardReport source trigger datum existing cfg.limits
            (cfg.rates.rateOf source) = .insert report replaces ∧
              writes = (replaces.map fun r => Write.deleteEventReport r.id).toList ++
                (datum.dedupKey.map fun key =>
                  Write.setEventDedupKeys source.id (source.eventDedupKeys ++ [key])).toList ++
                    [.insertEventReport report] := by
  unfold planEvent planFlexible planStandard at h
  cases hs : source.reportSpec with
  | none =>
    rw [hs] at h
    dsimp only at h
    cases hd : decideStandardReport source trigger datum existing cfg.limits
      (cfg.rates.rateOf source) with
    | drop reason =>
      rw [hd] at h
      cases h
    | insert report replaces =>
      rw [hd] at h
      exact .inr (.inr ⟨report, replaces, rfl, rfl, (Option.some.inj h).symm⟩)
  | some spec =>
    rw [hs] at h
    dsimp only at h
    cases hc : spec.credit source (trigger.attributedWith datum) existing
      (reportContext cfg source spec trigger) with
    | rejected reason =>
      rw [hc] at h
      cases h
    | historyOnly next =>
      rw [hc] at h
      exact .inl ⟨spec, next, rfl, hc, (Option.some.inj h).symm⟩
    | reports next insert delete =>
      rw [hc] at h
      exact .inr (.inl ⟨spec, next, insert, delete, rfl, hc, (Option.some.inj h).symm⟩)

theorem eventWrites_eq_some {r : Records} {writes : List Write}
    (h : eventWrites cfg r source trigger = some writes) :
    ∃ datum, selectDatum source trigger = some datum ∧
      r.eventReportCount trigger.destination < cfg.limits.maxEventReportsPerDestination.toNat ∧
        planEvent cfg source trigger datum (r.eventReports.filter (·.sourceId == source.id)) =
          some writes := by
  unfold eventWrites LimitStatus.check at h
  split at h
  · cases h
  · next datum selected =>
    by_cases full : cfg.limits.maxEventReportsPerDestination.toNat ≤
      r.eventReportCount trigger.destination
    · rw [if_pos full, if_pos rfl] at h
      cases h
    · rw [if_neg full, if_neg (by simp)] at h
      exact ⟨datum, selected, Nat.lt_of_not_le full, h⟩

theorem of_mem_eventWrites {r : Records} {w : Write}
    (h : w ∈ (eventWrites cfg r source trigger).getD []) :
    (∃ spec, w = .setReportSpec source.id spec) ∨ (∃ id, w = .deleteEventReport id) ∨
      (∃ report, w = .insertEventReport report) ∨
        ∃ keys, w = .setEventDedupKeys source.id keys := by
  rcases found : eventWrites cfg r source trigger with _ | writes
  · rw [found] at h
    cases h
  · rw [found, Option.getD_some] at h
    obtain ⟨datum, -, -, planned⟩ := eventWrites_eq_some found
    rcases planEvent_cases planned with ⟨_, _, -, -, rfl⟩ | ⟨_, _, _, _, -, -, rfl⟩ |
      ⟨_, _, -, -, rfl⟩
    · exact .inl ⟨_, List.mem_singleton.1 h⟩
    · simp only [List.mem_append, List.mem_map, List.mem_singleton] at h
      rcases h with (⟨_, -, rfl⟩ | ⟨_, -, rfl⟩) | rfl
      · exact .inr (.inl ⟨_, rfl⟩)
      · exact .inr (.inr (.inl ⟨_, rfl⟩))
      · exact .inl ⟨_, rfl⟩
    · simp only [List.mem_append, Option.mem_toList, Option.map_eq_some_iff,
        List.mem_singleton] at h
      rcases h with (⟨_, -, rfl⟩ | ⟨_, -, rfl⟩) | rfl
      · exact .inr (.inl ⟨_, rfl⟩)
      · exact .inr (.inr (.inr ⟨_, rfl⟩))
      · exact .inr (.inr (.inl ⟨_, rfl⟩))

/-- The event path leaves the aggregate reports alone. -/
theorem onAggregateReports_eventWrites {r : Records} {w : Write}
    (h : w ∈ (eventWrites cfg r source trigger).getD []) : w.onAggregateReports = some := by
  rcases of_mem_eventWrites h with ⟨_, rfl⟩ | ⟨_, rfl⟩ | ⟨_, rfl⟩ | ⟨_, rfl⟩ <;> rfl

theorem aggregateReports_of_performAll {writes : List Write} {r r' : Records}
    (h : performAll writes r = .ok () r') (alone : ∀ w ∈ writes, w.onAggregateReports = some) :
    r'.aggregateReports = r.aggregateReports := by
  obtain ⟨-, -, -, eq, -⟩ := performAll_eq_ok_iff.1 h
  exact (Option.some.inj ((foldlM_of_forall_some alone r.aggregateReports).symm.trans eq)).symm

theorem aggregateWrites_congr {r r' : Records} (h : r'.aggregateReports = r.aggregateReports)
    (draws : Draws) :
    aggregateWrites cfg r' source trigger draws = aggregateWrites cfg r source trigger draws := by
  unfold aggregateWrites Records.aggregateReportCount
  rw [h]

theorem follows_closing (attributed : Bool) (losers : List Source) :
    Follows (do
      if attributed then
        write Store.backend (planAttribution source losers trigger)
        return TriggerOutcome.attributed
      else ignore Store.backend trigger) s
      (closingPlan attributed source losers trigger s.draws) := by
  unfold closingPlan
  cases attributed with
  | true =>
    exact follows_write_pure (planAttribution source losers trigger) TriggerOutcome.attributed
  | false => exact follows_ignore

theorem follows_credit (losers : List Source) :
    Follows (credit Store.backend cfg source losers trigger) s
      (creditPlan cfg s.store.records source losers trigger s.draws) := by
  -- the aggregate path does not see what the event path has written
  have second (r : Records)
      (performed : performAll ((eventWrites cfg s.store.records source trigger).getD [])
        s.store.records = .ok () r) :
      Follows (aggregatePath Store.backend cfg source trigger) ⟨s.store.withRecords r, s.draws⟩
        ⟨(aggregateWrites cfg s.store.records source trigger s.draws).1.isSome,
          (aggregateWrites cfg s.store.records source trigger s.draws).1.getD [],
          (aggregateWrites cfg s.store.records source trigger s.draws).2⟩ := by
    have same : aggregateWrites cfg r source trigger s.draws =
        aggregateWrites cfg s.store.records source trigger s.draws :=
      aggregateWrites_congr (aggregateReports_of_performAll performed
        fun w => onAggregateReports_eventWrites) s.draws
    rw [← same]
    exact follows_aggregatePath
  exact follows_eventPath.bind fun r performed =>
    (second r performed).bind fun r' _ => follows_closing _ losers

theorem follows_attributePending :
    Follows (attributePending Store.backend cfg trigger) s
      (pendingPlan cfg s.store.records trigger s.draws) := by
  unfold attributePending pendingPlan
  refine Follows.ask_bind rfl ?_
  cases selectSource (s.store.records.sources.filter (·.matchesTrigger trigger)) trigger with
  | none => exact follows_ignore
  | some winner =>
    obtain ⟨source, losers⟩ := winner
    dsimp only
    by_cases pass : clausesPass source.matchingData trigger.filters trigger.notFilters = true
    · rw [if_pos pass, if_pos pass]
      refine follows_limitReached.read_bind ?_
      split_ifs
      · exact follows_ignore
      · exact follows_credit losers
    · rw [if_neg pass, if_neg pass]
      exact follows_ignore

theorem follows_attributeTrigger (cfg : JobConfig) {id : String}
    (h : s.store.records.trigger? id = some trigger) :
    Follows (attributeTrigger Store.backend cfg id) s
      (triggerPlan cfg s.store.records trigger s.draws) := by
  have answer : (Query.trigger id).answer s.store.records = .ok trigger := by
    simp only [Query.answer, h]
  refine Follows.ask_bind answer ?_
  unfold triggerPlan
  split_ifs with done
  · exact follows_pure TriggerOutcome.skipped
  · exact follows_attributePending

theorem attributeTrigger_of_unknown {id : String} (h : s.store.records.trigger? id = none) :
    attributeTrigger Store.backend cfg id s = .error (.unknownTrigger id) s := by
  unfold attributeTrigger
  rw [bind_eq]
  simp only [ask, call, Store.backend, Query.answer, h]

/-! ## What is in a plan -/

theorem selectSource_perm {sources losers : List Source}
    (h : selectSource sources trigger = some (source, losers)) :
    (source :: losers).Perm sources := by
  rw [← selectSource_eq_some_iff.1 h]
  exact rankSources_perm trigger.time sources

theorem of_selectSource {r : Records} {losers : List Source}
    (h : selectSource (r.sources.filter (·.matchesTrigger trigger)) trigger =
      some (source, losers)) : source ∈ r.sources ∧ source.matchesTrigger trigger = true :=
  List.mem_filter.1 ((selectSource_perm h).subset List.mem_cons_self)

/-- The three ways in which processing a trigger may end. -/
theorem triggerPlan_cases (cfg : JobConfig) (r : Records) (trigger : Trigger) (draws : Draws) :
    (trigger.status ≠ .pending ∧ (triggerPlan cfg r trigger draws).value = .skipped ∧
      (triggerPlan cfg r trigger draws).writes = []) ∨
      (trigger.status = .pending ∧ (triggerPlan cfg r trigger draws).value = .ignored ∧
        (triggerPlan cfg r trigger draws).writes = [.setTriggerStatus [trigger.id] .ignored]) ∨
        ∃ source losers, trigger.status = .pending ∧
          selectSource (r.sources.filter (·.matchesTrigger trigger)) trigger =
            some (source, losers) ∧
          clausesPass source.matchingData trigger.filters trigger.notFilters = true ∧
          isBlocked cfg r source trigger = false ∧ source.mode = .truthfully ∧
          ((eventWrites cfg r source trigger).isSome ||
            (aggregateWrites cfg r source trigger draws).1.isSome) = true ∧
          (triggerPlan cfg r trigger draws).value = .attributed ∧
          (triggerPlan cfg r trigger draws).writes =
            (eventWrites cfg r source trigger).getD [] ++
              ((aggregateWrites cfg r source trigger draws).1.getD [] ++
                planAttribution source losers trigger) := by
  unfold triggerPlan
  by_cases done : trigger.status ≠ .pending
  · rw [if_pos done]
    exact .inl ⟨done, rfl, rfl⟩
  · rw [if_neg done]
    rw [not_ne_iff] at done
    right
    unfold pendingPlan
    rcases won : selectSource (r.sources.filter (·.matchesTrigger trigger)) trigger with
      _ | ⟨source, losers⟩
    · exact .inl ⟨done, rfl, rfl⟩
    · dsimp only
      split_ifs with pass blocked
      · exact .inl ⟨done, rfl, rfl⟩
      · rw [not_or, Bool.not_eq_true, not_ne_iff] at blocked
        unfold creditPlan closingPlan
        dsimp only
        by_cases led : ((eventWrites cfg r source trigger).isSome ||
          (aggregateWrites cfg r source trigger draws).1.isSome) = true
        · rw [if_pos led]
          exact .inr ⟨source, losers, done, rfl, pass, blocked.1, blocked.2, led, rfl, rfl⟩
        · rw [if_neg led]
          rw [Bool.not_eq_true, Bool.or_eq_false_iff, Option.isSome_eq_false_iff,
            Option.isSome_eq_false_iff, Option.isNone_iff_eq_none, Option.isNone_iff_eq_none] at led
          rw [led.1, led.2]
          exact .inl ⟨done, rfl, rfl⟩
      · exact .inl ⟨done, rfl, rfl⟩

theorem aggregateWrites_eq_some {r : Records} {draws : Draws} {writes : List Write}
    (h : (aggregateWrites cfg r source trigger draws).1 = some writes) :
    ∃ report dedupKey,
      (decideAggregateReport source trigger cfg.limits draws).1 = .insert report dedupKey ∧
        r.aggregateReportCount trigger.destination <
          cfg.limits.maxAggregateReportsPerDestination.toNat ∧
          writes = planAggregate source report dedupKey := by
  unfold aggregateWrites LimitStatus.check at h
  split at h
  · cases h
  · next report dedupKey draws' decided =>
    by_cases full : cfg.limits.maxAggregateReportsPerDestination.toNat ≤
      r.aggregateReportCount trigger.destination
    · rw [if_pos full, if_pos rfl] at h
      cases h
    · rw [if_neg full, if_neg (by simp)] at h
      rw [decided]
      exact ⟨report, dedupKey, rfl, Nat.lt_of_not_le full, (Option.some.inj h).symm⟩

theorem of_mem_aggregateWrites {r : Records} {draws : Draws} {w : Write}
    (h : w ∈ (aggregateWrites cfg r source trigger draws).1.getD []) :
    (∃ contributions, w = .setContributions source.id contributions) ∨
      (∃ keys, w = .setAggregateDedupKeys source.id keys) ∨
        ∃ delay, w = .insertAggregateReport (aggregateReport source trigger delay) := by
  rcases found : (aggregateWrites cfg r source trigger draws).1 with _ | writes
  · rw [found] at h
    cases h
  · rw [found, Option.getD_some] at h
    obtain ⟨report, dedupKey, decided, -, rfl⟩ := aggregateWrites_eq_some found
    obtain ⟨-, -, delay, rfl⟩ := decideAggregateReport_eq_insert decided
    simp only [planAggregate, List.cons_append, List.mem_cons, List.mem_append, Option.mem_toList,
      Option.map_eq_some_iff, List.not_mem_nil, or_false] at h
    rcases h with rfl | ⟨key, -, rfl⟩ | rfl
    · exact .inl ⟨_, rfl⟩
    · exact .inr (.inl ⟨_, rfl⟩)
    · exact .inr (.inr ⟨delay, rfl⟩)

theorem of_mem_planAttribution {losers : List Source} {w : Write}
    (h : w ∈ planAttribution source losers trigger) :
    w = .setSourceStatus (losers.map (·.id)) .ignored ∨
      w = .insertAttribution (Attribution.of source trigger) ∨
        w = .setTriggerStatus [trigger.id] .attributed := by
  unfold planAttribution at h
  simp only [List.mem_append, List.mem_cons, List.not_mem_nil, or_false] at h
  refine h.imp_left fun first => ?_
  split_ifs at first
  · cases first
  · exact List.mem_singleton.1 first

/-! ## Transactions -/

section

variable {step : Step Store α} {records r : Records} {draws draws' : Draws}

theorem transactionally_ok {a : α}
    (h : step ⟨⟨records, some records⟩, draws⟩ = .ok a ⟨⟨r, some records⟩, draws'⟩) :
    transactionally Store.backend step ⟨⟨records, none⟩, draws⟩ = .ok a ⟨⟨r, none⟩, draws'⟩ := by
  simp only [transactionally, call, Store.backend, Store.transact, h]

theorem transactionally_error {e : StoreError}
    (h : step ⟨⟨records, some records⟩, draws⟩ = .error e ⟨⟨r, some records⟩, draws'⟩) :
    transactionally Store.backend step ⟨⟨records, none⟩, draws⟩ =
      .error e ⟨⟨records, none⟩, draws'⟩ := by
  simp only [transactionally, call, Store.backend, Store.transact, h]

end

/-- A trigger whose plan can be carried out is dealt with as planned. -/
theorem process_of_performAll (closed : s.store.snapshot = none) {id : String} {r : Records}
    (found : s.store.records.trigger? id = some trigger)
    (performed : performAll (triggerPlan cfg s.store.records trigger s.draws).writes
      s.store.records = .ok () r) :
    process Store.backend cfg id s =
      .ok (triggerPlan cfg s.store.records trigger s.draws).value
        ⟨s.store.withRecords r, (triggerPlan cfg s.store.records trigger s.draws).draws⟩ := by
  obtain ⟨⟨records, snapshot⟩, draws⟩ := s
  cases closed
  have follows := follows_attributeTrigger cfg (s := ⟨⟨records, some records⟩, draws⟩) found
  unfold Follows at follows
  rw [performed] at follows
  exact transactionally_ok follows

/-- A trigger whose plan cannot be carried out fails and leaves the store as it was. -/
theorem process_of_performAll_error (closed : s.store.snapshot = none) {id : String}
    {e : StoreError} {r : Records} (found : s.store.records.trigger? id = some trigger)
    (performed : performAll (triggerPlan cfg s.store.records trigger s.draws).writes
      s.store.records = .error e r) :
    ∃ draws, process Store.backend cfg id s = .error e ⟨s.store, draws⟩ := by
  obtain ⟨⟨records, snapshot⟩, draws⟩ := s
  cases closed
  have follows := follows_attributeTrigger cfg (s := ⟨⟨records, some records⟩, draws⟩) found
  unfold Follows at follows
  rw [performed] at follows
  obtain ⟨draws', eq⟩ := follows
  exact ⟨draws', transactionally_error eq⟩

/-- All that processing a trigger can do when no transaction is open: it fails and leaves the store
as it was, or it performs every write of its plan. -/
theorem process_cases (cfg : JobConfig) (id : String) (closed : s.store.snapshot = none) :
    (∃ e draws, process Store.backend cfg id s = .error e ⟨s.store, draws⟩) ∨
      ∃ trigger r, s.store.records.trigger? id = some trigger ∧
        performAll (triggerPlan cfg s.store.records trigger s.draws).writes s.store.records =
          .ok () r ∧
            process Store.backend cfg id s =
              .ok (triggerPlan cfg s.store.records trigger s.draws).value
                ⟨s.store.withRecords r,
                  (triggerPlan cfg s.store.records trigger s.draws).draws⟩ := by
  cases found : s.store.records.trigger? id with
  | none =>
    left
    obtain ⟨⟨records, snapshot⟩, draws⟩ := s
    cases closed
    exact ⟨_, draws, transactionally_error
      (attributeTrigger_of_unknown (s := ⟨⟨records, some records⟩, draws⟩) found)⟩
  | some trigger =>
    rcases performed : performAll (triggerPlan cfg s.store.records trigger s.draws).writes
      s.store.records with ⟨⟨⟩, r⟩ | ⟨e, r⟩
    · exact .inr ⟨trigger, r, rfl, performed, process_of_performAll closed found performed⟩
    · exact .inl ⟨e, process_of_performAll_error closed found performed⟩

theorem process_eq_ok {s' : JobState Store} {id : String} {outcome : TriggerOutcome}
    (closed : s.store.snapshot = none) (h : process Store.backend cfg id s = .ok outcome s') :
    ∃ trigger r, s.store.records.trigger? id = some trigger ∧
      performAll (triggerPlan cfg s.store.records trigger s.draws).writes s.store.records =
        .ok () r ∧
      outcome = (triggerPlan cfg s.store.records trigger s.draws).value ∧
      s' = ⟨s.store.withRecords r, (triggerPlan cfg s.store.records trigger s.draws).draws⟩ := by
  rcases process_cases cfg id closed with ⟨e, draws, failed⟩ | ⟨trigger, r, found, performed, ok⟩
  · rw [failed] at h
    cases h
  · rw [ok] at h
    cases h
    exact ⟨trigger, r, found, performed, rfl, rfl⟩

/-- While a transaction is open no other one begins. -/
theorem process_of_open (cfg : JobConfig) (id : String) {records : Records}
    (h : s.store.snapshot = some records) :
    process Store.backend cfg id s = .error .transactionInProgress s := by
  simp only [process, transactionally, call, Store.backend, Store.transact, h]

end Job

end AttributionReporting
