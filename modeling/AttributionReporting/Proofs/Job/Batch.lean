import AttributionReporting.Proofs.Job.Attempts

/-!
# A batch without its failures

Processing every pending trigger is a run of attempts, one for each trigger (`attempts`), and the
summary counts how they ended. Over a store whose reads and writes may fail, a trigger that fails
leaves no trace: the run ends in the records to which the other triggers alone lead over the store
itself, up to the delays of aggregate reports, which are drawn at random
(`processPending_without_failed`). What is pending afterwards is what has failed.
-/

namespace AttributionReporting

/-- The ids of the pending triggers, in order of registration. -/
def Records.pendingIds (r : Records) : List String :=
  (r.triggers.filter (·.status == .pending)).map Trigger.id

/-- The number of triggers that have come to a status. -/
def Records.newly (status : TriggerStatus) (before after : Records) : Nat :=
  after.triggers.countP fun t =>
    t.status == status && (before.trigger? t.id).all (·.status != status)

namespace Job

variable {σ : Type} {view : σ → Store} {b : Backend σ} {cfg : JobConfig} {s s' : JobState σ}
  {r : Records} {id : String}

/-! ## The job as attempts -/

/-- Processes the pending triggers one after the other. -/
def pendingAttempts (b : Backend σ) (cfg : JobConfig) : Step σ (List (String × TriggerResult)) := do
  let pending ← ask b .pendingTriggers
  attempts b cfg (pending.map Trigger.id)

/-- How many attempts ended in each way. -/
def summarize (results : List (String × TriggerResult)) : JobSummary :=
  results.foldl (fun summary x => summary.count x.2) {}

theorem foldlM_count_of_attempts {pending : List Trigger} {start : JobSummary}
    {results : List (String × TriggerResult)}
    (h : attempts b cfg (pending.map Trigger.id) s = .ok results s') :
    (pending.foldlM (fun summary trigger => do
      return summary.count (← attempt (process b cfg trigger.id))) start : Step σ JobSummary) s =
        .ok (results.foldl (fun summary x => summary.count x.2) start) s' := by
  induction pending generalizing start s results with
  | nil =>
    cases h
    rfl
  | cons trigger rest ih =>
    obtain ⟨result, s₁, others, first, others_ran, rfl⟩ := attempts_cons_eq_ok h
    rw [List.foldlM_cons, bind_eq, bind_eq, first]
    exact ih others_ran

/-- A batch makes an attempt at every pending trigger and counts how they end. -/
theorem processPending_of_attempts {results : List (String × TriggerResult)}
    (h : pendingAttempts b cfg s = .ok results s') :
    processPending b cfg s = .ok (summarize results) s' := by
  unfold pendingAttempts at h
  unfold processPending
  rw [bind_eq] at h ⊢
  cases listed : ask b .pendingTriggers s with
  | error e s₁ =>
    rw [listed] at h
    cases h
  | ok pending s₁ =>
    rw [listed] at h
    exact foldlM_count_of_attempts h

/-! ## What the summary counts -/

/-- The triggers whose attempts had an outcome, or those that failed. -/
def idsEnded (outcome? : Option TriggerOutcome) (results : List (String × TriggerResult)) :
    List String :=
  (results.filter fun x => x.2.toOption == outcome?).map Prod.fst

theorem summarize_eq (results : List (String × TriggerResult)) :
    summarize results =
      { attributed := (idsEnded (some .attributed) results).length
        ignored := (idsEnded (some .ignored) results).length
        skipped := (idsEnded (some .skipped) results).length
        failed := (idsEnded none results).length } := by
  have counts (start : JobSummary) :
      results.foldl (fun summary x => summary.count x.2) start =
        { attributed := start.attributed + (idsEnded (some .attributed) results).length
          ignored := start.ignored + (idsEnded (some .ignored) results).length
          skipped := start.skipped + (idsEnded (some .skipped) results).length
          failed := start.failed + (idsEnded none results).length } := by
    induction results generalizing start with
    | nil => rfl
    | cons x rest ih =>
      rw [List.foldl_cons, ih]
      obtain ⟨id, result⟩ := x
      rcases result with e | (_ | _ | _) <;>
        simp [JobSummary.count, idsEnded, Except.toOption, Nat.add_assoc, Nat.add_comm 1]
  unfold summarize
  rw [counts]
  simp only [Nat.zero_add]

/-- Every attempt is counted once. -/
theorem total_summarize (results : List (String × TriggerResult)) :
    (summarize results).attributed + (summarize results).ignored + (summarize results).skipped +
      (summarize results).failed = results.length := by
  rw [summarize_eq]
  dsimp only
  induction results with
  | nil => rfl
  | cons x rest ih =>
    obtain ⟨id, result⟩ := x
    rw [List.length_cons, ← ih]
    unfold idsEnded
    rcases result with e | (_ | _ | _) <;> simp [Except.toOption] <;> omega

theorem mem_idsEnded_iff {results : List (String × TriggerResult)} {result : TriggerResult}
    {outcome? : Option TriggerOutcome} (distinct : (results.map Prod.fst).Nodup)
    (mem : (id, result) ∈ results) :
    id ∈ idsEnded outcome? results ↔ result.toOption = outcome? := by
  unfold idsEnded
  constructor
  · intro h
    obtain ⟨x, hx, same⟩ := List.mem_map.1 h
    obtain ⟨mem', ended⟩ := List.mem_filter.1 hx
    have eq : x = (id, result) := List.inj_on_of_nodup_map distinct mem' mem same
    rw [eq] at ended
    exact beq_iff_eq.1 ended
  · intro ended
    exact List.mem_map.2 ⟨_, List.mem_filter.2 ⟨mem, beq_iff_eq.2 ended⟩, rfl⟩

theorem filter_mem_of_sublist {l₁ l₂ : List String} (sub : l₁.Sublist l₂) (distinct : l₂.Nodup) :
    l₂.filter (· ∈ l₁) = l₁ := by
  induction sub with
  | slnil => rfl
  | @cons l₁ l₂ a sub ih =>
    obtain ⟨fresh, distinct⟩ := List.nodup_cons.1 distinct
    have absent : a ∉ l₁ := fun mem => fresh (sub.subset mem)
    rw [List.filter_cons_of_neg (by simpa using absent), ih distinct]
  | @cons_cons l₁ l₂ a sub ih =>
    obtain ⟨fresh, distinct⟩ := List.nodup_cons.1 distinct
    have others : l₂.filter (fun b => decide (b ∈ a :: l₁)) = l₂.filter (· ∈ l₁) := by
      apply List.filter_congr
      intro b hb
      have ne : b ≠ a := fun same => fresh (same ▸ hb)
      simp only [List.mem_cons, ne, false_or]
    rw [List.filter_cons_of_pos (by simp), others, ih distinct]

theorem trigger?_of_mem (ids : (r.triggers.map Trigger.id).Nodup) {t : Trigger}
    (ht : t ∈ r.triggers) : r.trigger? t.id = some t :=
  find?_of_nodup ids ht

theorem status_of_mem_pendingIds (ids : (r.triggers.map Trigger.id).Nodup) {t : Trigger}
    (ht : t ∈ r.triggers) (mem : t.id ∈ r.pendingIds) : t.status = .pending := by
  obtain ⟨t', ht', same⟩ := List.mem_map.1 mem
  obtain ⟨stored, pending⟩ := List.mem_filter.1 ht'
  obtain rfl : t' = t := List.inj_on_of_nodup_map ids stored ht same
  exact beq_iff_eq.1 pending

namespace Ran

variable {before after : Records} {results : List (String × TriggerResult)}
  (ran : Ran before before.pendingIds results after)

include ran

theorem sublist (outcome? : Option TriggerOutcome) :
    (idsEnded outcome? results).Sublist (before.triggers.map Trigger.id) := by
  have all : (idsEnded outcome? results).Sublist before.pendingIds :=
    ran.ids ▸ List.filter_sublist.map Prod.fst
  exact all.trans (List.filter_sublist.map Trigger.id)

variable (keyed : before.WellKeyed)

include keyed

theorem distinct : (results.map Prod.fst).Nodup := by
  rw [ran.ids]
  exact keyed.triggers.sublist (List.filter_sublist.map Trigger.id)

/-- The triggers whose attempts ended in one way, in order of registration. -/
theorem filter_ended (outcome? : Option TriggerOutcome) :
    (before.triggers.filter fun t => decide (t.id ∈ idsEnded outcome? results)).map Trigger.id =
      idsEnded outcome? results := by
  have all := filter_mem_of_sublist (ran.sublist outcome?) keyed.triggers
  rwa [List.filter_map] at all

/-- A trigger that was not pending stays as it was, and one that was pending is settled by an
attempt that did not skip it. -/
theorem settled_cases {t : Trigger} (ht : t ∈ before.triggers) :
    (t.status ≠ .pending ∧ t.id ∉ results.map Prod.fst ∧ settle results t = t) ∨
      ∃ result, t.status = .pending ∧ (t.id, result) ∈ results ∧ result ≠ .ok .skipped ∧
        settle results t = settleOne result t := by
  by_cases pending : t.status = .pending
  · right
    have mem : t.id ∈ results.map Prod.fst := by
      rw [ran.ids]
      exact List.mem_map_of_mem (List.mem_filter.2 ⟨ht, beq_iff_eq.2 pending⟩)
    obtain ⟨⟨id, result⟩, hx, rfl⟩ := List.mem_map.1 mem
    exact ⟨result, pending, hx, ran.skipped _ hx, settle_of_mem (ran.distinct keyed) hx⟩
  · left
    have absent : t.id ∉ results.map Prod.fst := by
      rw [ran.ids]
      exact fun mem => pending (status_of_mem_pendingIds keyed.triggers ht mem)
    exact ⟨pending, absent, settle_of_notMem absent⟩

theorem mem_idsEnded_iff_status {t : Trigger} (ht : t ∈ before.triggers)
    {outcome? : Option TriggerOutcome} (h : outcome? ≠ some .skipped) :
    t.id ∈ idsEnded outcome? results ↔
      t.status = .pending ∧ (settle results t).status = statusAfter outcome? := by
  rcases ran.settled_cases keyed ht with ⟨notPending, absent, -⟩ |
    ⟨result, pending, mem, notSkipped, eq⟩
  · refine iff_of_false (fun mem => absent ?_) fun both => notPending both.1
    exact (List.filter_sublist.map Prod.fst).subset mem
  · rw [mem_idsEnded_iff (ran.distinct keyed) mem, eq,
      settleOne_status_iff pending notSkipped h]
    simp only [pending, true_and]

/-- Afterwards the triggers that failed are pending, and no others are. -/
theorem pendingIds_eq : after.pendingIds = idsEnded none results := by
  have sameIds : Trigger.id ∘ settle results = Trigger.id := funext (settle_id results)
  rw [← ran.filter_ended keyed none]
  unfold Records.pendingIds
  rw [ran.triggers, List.filter_map, List.map_map, sameIds]
  congr 1
  apply List.filter_congr
  intro t ht
  rw [Function.comp_apply, Bool.eq_iff_iff, beq_iff_eq, decide_eq_true_eq,
    ran.mem_idsEnded_iff_status keyed ht (by simp)]
  refine ⟨fun pending => ⟨?_, pending⟩, fun both => both.2⟩
  rcases ran.settled_cases keyed ht with ⟨-, -, eq⟩ | ⟨_, before_pending, -⟩
  · rwa [eq] at pending
  · exact before_pending

/-- As many triggers have come to a status as attempts have ended accordingly. -/
theorem newly_eq (outcome : TriggerOutcome) (h : outcome ≠ .skipped) :
    Records.newly (statusAfter (some outcome)) before after =
      (idsEnded (some outcome) results).length := by
  rw [← ran.filter_ended keyed (some outcome), List.length_map, ← List.countP_eq_length_filter]
  unfold Records.newly
  rw [ran.triggers, List.countP_map]
  apply List.countP_congr
  intro t ht
  rw [Function.comp_apply, settle_id, trigger?_of_mem keyed.triggers ht, decide_eq_true_eq,
    ran.mem_idsEnded_iff_status keyed ht (by simpa using h)]
  simp only [Option.all_some, Bool.and_eq_true, beq_iff_eq, bne_iff_ne]
  constructor
  · rintro ⟨now, then_⟩
    refine ⟨?_, now⟩
    rcases ran.settled_cases keyed ht with ⟨-, -, eq⟩ | ⟨_, pending, -⟩
    · rw [eq] at now
      exact absurd now then_
    · exact pending
  · rintro ⟨pending, now⟩
    refine ⟨now, ?_⟩
    rw [pending]
    cases outcome with
    | attributed => exact TriggerStatus.noConfusion
    | ignored => exact TriggerStatus.noConfusion
    | skipped => exact absurd rfl h

end Ran

/-! ## The whole batch -/

/-- How a batch ends in which some triggers fail. -/
structure BatchEnd (cfg : JobConfig) (before : Records) (results : List (String × TriggerResult))
    (summary : JobSummary) (after : Records) : Prop where
  /-- There is one attempt at every pending trigger, in order of registration. -/
  ids : results.map Prod.fst = before.pendingIds
  total : summary.attributed + summary.ignored + summary.skipped + summary.failed =
    before.pendingIds.length
  skipped : summary.skipped = 0
  attributed : summary.attributed = Records.newly .attributed before after
  ignored : summary.ignored = Records.newly .ignored before after
  /-- What is pending is what has failed. -/
  pending : after.pendingIds = idsEnded none results
  kept : before.aggregateReports <+: after.aggregateReports
  /-- Over the store itself, the other triggers alone lead to the same records, whatever delays are
  drawn. -/
  same : ∀ draws, ∃ t, attempts Store.backend cfg ((succeeded results).map Prod.fst)
      ⟨⟨before, none⟩, draws⟩ = .ok (succeeded results) t ∧
    t.store.snapshot = none ∧ before.aggregateReports <+: t.store.records.aggregateReports ∧
      t.store.records.withoutDelays = after.withoutDelays

/-- The list of pending triggers, when asking for it works. -/
theorem ask_pendingTriggers
    (listing : Works view (b.ask .pendingTriggers) (Store.backend.ask .pendingTriggers)) :
    ∃ pending s', ask b .pendingTriggers s = .ok pending s' ∧ view s'.store = view s.store ∧
      pending.map Trigger.id = (view s.store).records.pendingIds := by
  have works := works_call listing
  have real : call (Store.backend.ask .pendingTriggers) (s.through view) =
      .ok ((view s.store).records.triggers.filter (·.status == .pending)) (s.through view) := rfl
  unfold ask
  cases asked : call (b.ask .pendingTriggers) s with
  | error e s' =>
    have impossible := works.error asked
    rw [real] at impossible
    cases impossible
  | ok pending s' =>
    have same := works.ok asked
    rw [real] at same
    obtain ⟨rfl, through⟩ := EStateM.Result.ok.inj same
    exact ⟨_, s', rfl, (congrArg JobState.store through).symm, rfl⟩

/-- Attempts at all pending triggers end as a batch does. -/
theorem batchEnd_of_attempts (wraps : b.Wraps view)
    (transactions : ∀ step, Works view (b.transact step) (Store.backend.transact step))
    {results : List (String × TriggerResult)} (reachable : (view s.store).Reachable)
    (closed : (view s.store).snapshot = none)
    (h : attempts b cfg (view s.store).records.pendingIds s = .ok results s') :
    (view s'.store).snapshot = none ∧
      BatchEnd cfg (view s.store).records results (summarize results) (view s'.store).records := by
  have keyed := reachable.wellKeyed.records
  have distinct : (view s.store).records.pendingIds.Nodup :=
    keyed.triggers.sublist (List.filter_sublist.map Trigger.id)
  have pending : ∀ t ∈ (view s.store).records.triggers,
      t.id ∈ (view s.store).records.pendingIds → t.status = .pending :=
    fun t ht mem => status_of_mem_pendingIds keyed.triggers ht mem
  obtain ⟨ran, closed'⟩ := ran_of_attempts wraps transactions reachable closed distinct pending h
  have none_skipped : idsEnded (some .skipped) results = [] := by
    unfold idsEnded
    rw [List.map_eq_nil_iff, List.filter_eq_nil_iff]
    rintro ⟨id, result⟩ hx ended
    rcases result with e | outcome
    · cases ended
    · cases beq_iff_eq.1 ended
      exact ran.skipped _ hx rfl
  refine ⟨closed', ?_⟩
  constructor
  case ids => exact ran.ids
  case total => rw [total_summarize, ← ran.ids, List.length_map]
  case skipped => rw [summarize_eq, none_skipped, List.length_nil]
  case attributed =>
    rw [summarize_eq]
    exact (ran.newly_eq keyed .attributed TriggerOutcome.noConfusion).symm
  case ignored =>
    rw [summarize_eq]
    exact (ran.newly_eq keyed .ignored TriggerOutcome.noConfusion).symm
  case pending => exact ran.pendingIds_eq keyed
  case kept => exact ran.kept
  case same =>
    intro draws
    have store_eq : (⟨(view s.store).records, none⟩ : Store) = view s.store := by rw [← closed]
    rw [store_eq]
    obtain ⟨t, others, closed_t, same⟩ := attempts_succeeded wraps transactions
      (t := ⟨view s.store, draws⟩) closed closed rfl h
    have sub : ((succeeded results).map Prod.fst).Sublist (view s.store).records.pendingIds :=
      ran.ids ▸ List.filter_sublist.map Prod.fst
    obtain ⟨ran_t, -⟩ := ran_of_attempts (s := ⟨view s.store, draws⟩) Backend.wraps_self
      (fun step => works_self (Store.backend.transact step)) reachable closed
      (distinct.sublist sub) (fun t ht mem => pending t ht (sub.subset mem)) others
    exact ⟨t, others, closed_t, ran_t.kept, same.symm⟩

/-- A trigger that fails in a batch leaves no trace and does not stop it. -/
theorem processPending_without_failed (wraps : b.Wraps view)
    (transactions : ∀ step, Works view (b.transact step) (Store.backend.transact step))
    (listing : Works view (b.ask .pendingTriggers) (Store.backend.ask .pendingTriggers))
    (reachable : (view s.store).Reachable) (closed : (view s.store).snapshot = none) :
    ∃ results s', pendingAttempts b cfg s = .ok results s' ∧
      processPending b cfg s = .ok (summarize results) s' ∧ (view s'.store).snapshot = none ∧
      BatchEnd cfg (view s.store).records results (summarize results) (view s'.store).records := by
  obtain ⟨pending, s₁, listed, same, ids⟩ := ask_pendingTriggers (s := s) listing
  obtain ⟨results, s', ran⟩ := attempts_total b cfg (pending.map Trigger.id) s₁
  have batch : pendingAttempts b cfg s = .ok results s' := by
    unfold pendingAttempts
    rw [bind_eq, listed]
    exact ran
  refine ⟨results, s', batch, processPending_of_attempts batch, ?_⟩
  rw [ids] at ran
  rw [← same] at reachable closed ran ⊢
  exact batchEnd_of_attempts wraps transactions reachable closed ran

/-- A store whose reads and writes inside a transaction run out. -/
def sampleFailing : Backend (Countdown × Store) :=
  .gated (Backend.sparing (fun kind => kind matches .transaction _ | .pendingTriggers)
    Countdown.gate) Store.backend

/-- Three pending triggers of the sample source and room for one report: the second trigger would
replace the report of the first, and the third leads to none. -/
def sampleBatch : JobState (Countdown × Store) :=
  ⟨([(.insertEventReport, 1)],
    { records :=
        { sources := [Sample.source]
          triggers := [sampleTrigger "trigger1",
            { sampleTrigger "trigger2" with eventData := [{ data := 1, priority := 5 }] },
            { sampleTrigger "trigger3" with eventData := [] }] } }), []⟩

/-- The report of the second trigger cannot be inserted, so the report that was deleted to make room
for it is still there. -/
theorem processPending_without_failed_sample :
    ∃ results s', pendingAttempts sampleFailing sampleConfig sampleBatch = .ok results s' ∧
      summarize results = { attributed := 1, ignored := 1, failed := 1 } ∧
      idsEnded none results = ["trigger2"] ∧
      s'.store.2.records.eventReports.map (·.id) = ["source1:trigger1"] ∧
      BatchEnd sampleConfig sampleBatch.store.2.records results (summarize results)
        s'.store.2.records := by
  have reachable : sampleBatch.store.2.Reachable := by
    have first := Store.Reachable.ok (c := .addSource Sample.source) .empty rfl
    have second := Store.Reachable.ok (c := .addTrigger (sampleTrigger "trigger1")) first rfl
    have third := Store.Reachable.ok (c := .addTrigger
      { sampleTrigger "trigger2" with eventData := [{ data := 1, priority := 5 }] }) second rfl
    exact Store.Reachable.ok (c := .addTrigger
      { sampleTrigger "trigger3" with eventData := [] }) third rfl
  have transactions (step : Transaction) :
      Works Prod.snd (sampleFailing.transact step) (Store.backend.transact step) :=
    Backend.works_transact_sparing (by cases step <;> rfl) Countdown.gate Store.backend
  have listing : Works Prod.snd (sampleFailing.ask .pendingTriggers)
      (Store.backend.ask .pendingTriggers) :=
    Backend.works_ask_sparing rfl Countdown.gate Store.backend
  obtain ⟨results, s', ran, -, -, batch⟩ := @processPending_without_failed _ Prod.snd sampleFailing
    sampleConfig sampleBatch (Backend.wraps_gated _) transactions listing reachable rfl
  have ends : EStateM.run' (do
      let results ← pendingAttempts sampleFailing sampleConfig
      let s' ← get
      return (summarize results, idsEnded none results,
        s'.store.2.records.eventReports.map (·.id))) sampleBatch =
        some ({ attributed := 1, ignored := 1, failed := 1 }, ["trigger2"],
          ["source1:trigger1"]) := by
    cbv
  rw [EStateM.run', EStateM.run, bind_eq, ran] at ends
  obtain ⟨counts, found⟩ := Prod.mk.inj (Option.some.inj ends)
  obtain ⟨failed, reports⟩ := Prod.mk.inj found
  exact ⟨results, s', ran, counts, failed, reports, batch⟩

end Job

end AttributionReporting
