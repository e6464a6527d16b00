import AttributionReporting.Proofs.Job.Delays
import AttributionReporting.Proofs.Job.Outcome
import AttributionReporting.Proofs.Job.Rollback

/-!
# Attempts at triggers

The job makes an attempt at one trigger after the other, whether they fail or not (`attempts`). Over
a store whose reads and writes may fail, an attempt does what it does over the store itself, or it
changes nothing (`attempt_process_cases`). So the triggers that fail can be left out: the others
alone lead to the same records over the store itself, up to the delays of aggregate reports
(`attempts_succeeded`).
-/

namespace AttributionReporting

namespace Job

variable {σ : Type} {view : σ → Store} {b : Backend σ} {cfg : JobConfig} {s s' : JobState σ}

/-- How an attempt at a trigger ended. -/
abbrev TriggerResult := Except StoreError TriggerOutcome

/-! ## Attempts -/

/-- Processes triggers one after the other, whether they fail or not. -/
def attempts (b : Backend σ) (cfg : JobConfig) :
    List String → Step σ (List (String × TriggerResult))
  | [] => pure []
  | id :: rest => do
    let result ← attempt (process b cfg id)
    let results ← attempts b cfg rest
    return (id, result) :: results

theorem attempt_total {α : Type} (step : Step σ α) (s : JobState σ) :
    ∃ result s', attempt step s = .ok result s' := by
  unfold attempt
  cases step s with
  | ok a s' => exact ⟨_, _, rfl⟩
  | error e s' => exact ⟨_, _, rfl⟩

theorem attempts_cons {id : String} {rest : List String} {result : TriggerResult}
    {s₁ : JobState σ} (first : attempt (process b cfg id) s = .ok result s₁) :
    attempts b cfg (id :: rest) s =
      match attempts b cfg rest s₁ with
      | .ok results s' => .ok ((id, result) :: results) s'
      | .error e s' => .error e s' := by
  rw [attempts, bind_eq, first]
  dsimp only
  rw [bind_eq]
  cases attempts b cfg rest s₁ <;> rfl

theorem attempts_total (b : Backend σ) (cfg : JobConfig) (ids : List String) (s : JobState σ) :
    ∃ results s', attempts b cfg ids s = .ok results s' := by
  induction ids generalizing s with
  | nil => exact ⟨_, _, rfl⟩
  | cons id rest ih =>
    obtain ⟨result, s₁, first⟩ := attempt_total (process b cfg id) s
    obtain ⟨results, s', others⟩ := ih s₁
    rw [attempts_cons first, others]
    exact ⟨_, _, rfl⟩

theorem attempts_cons_eq_ok {id : String} {rest : List String}
    {results : List (String × TriggerResult)}
    (h : attempts b cfg (id :: rest) s = .ok results s') :
    ∃ result s₁ others, attempt (process b cfg id) s = .ok result s₁ ∧
      attempts b cfg rest s₁ = .ok others s' ∧ results = (id, result) :: others := by
  obtain ⟨result, s₁, first⟩ := attempt_total (process b cfg id) s
  obtain ⟨others, s₂, ran⟩ := attempts_total b cfg rest s₁
  rw [attempts_cons first, ran] at h
  cases h
  exact ⟨result, s₁, others, first, ran, rfl⟩

/-! ## One attempt -/

section

variable (wraps : b.Wraps view)
  (transactions : ∀ step, Works view (b.transact step) (Store.backend.transact step))

include wraps transactions

/-- While transactions work, an attempt does what it does over the store itself, or it fails and
changes nothing. -/
theorem attempt_process_cases (cfg : JobConfig) (id : String)
    (closed : (view s.store).snapshot = none) :
    (∃ outcome s', attempt (process b cfg id) s = .ok (.ok outcome) s' ∧
      process Store.backend cfg id (s.through view) = .ok outcome (s'.through view) ∧
      (view s'.store).snapshot = none) ∨
      ∃ e s', attempt (process b cfg id) s = .ok (.error e) s' ∧ view s'.store = view s.store := by
  have tracks := tracks_attributeTrigger wraps cfg id
  have ends : TransactionEnd view b (attributeTrigger b cfg id)
      (attributeTrigger Store.backend cfg id) s :=
    transactionally_cases wraps (transactions .rollback) tracks closed
  unfold attempt process
  cases ends with
  | done outcome s' ok same closed' =>
    rw [ok]
    exact .inl ⟨outcome, s', rfl, same, closed'⟩
  | undone e s' failed kept _ =>
    rw [failed]
    exact .inr ⟨e, s', rfl, kept⟩
  | stuck _ _ _ commit =>
    exact absurd commit
      (not_commitFails (wraps.transact .begin) (transactions .commit) tracks closed)

end

/-- What an attempt makes of the trigger that it is about. -/
def settleOne : TriggerResult → Trigger → Trigger
  | .ok .attributed, t => { t with status := .attributed }
  | .ok .ignored, t => { t with status := .ignored }
  | .ok .skipped, t => t
  | .error _, t => t

theorem settleOne_id (result : TriggerResult) (t : Trigger) :
    (settleOne result t).id = t.id := by
  rcases result with _ | (_ | _ | _) <;> rfl

variable {r r' : Records} {id : String} {outcome : TriggerOutcome}

theorem Effect.triggers_eq (h : Effect id r outcome r') :
    r'.triggers = r.triggers.map fun t =>
      if t.id = id then settleOne (.ok outcome) t else t := by
  cases h with
  | skipped =>
    simp only [settleOne, ite_self, List.map_id']
  | ignored => rfl
  | attributed found =>
    rw [← id_of_trigger? found]
    rfl

theorem Effect.aggregateReports_prefix (h : Effect id r outcome r') :
    r.aggregateReports <+: r'.aggregateReports := by
  cases h with
  | skipped => exact List.prefix_refl _
  | ignored => exact List.prefix_refl _
  | attributed => exact List.prefix_append _ _

/-- A trigger that is pending is not skipped. -/
theorem Effect.ne_skipped (h : Effect id r outcome r')
    (pending : ∀ t ∈ r.triggers, t.id = id → t.status = .pending) : outcome ≠ .skipped := by
  cases h with
  | skipped found dealtWith =>
    exact absurd (pending _ (List.mem_of_find?_eq_some found) (id_of_trigger? found)) dealtWith
  | ignored => exact TriggerOutcome.noConfusion
  | attributed => exact TriggerOutcome.noConfusion

/-- The status of a trigger that was pending after an attempt with an outcome, or after one that
failed. -/
def statusAfter : Option TriggerOutcome → TriggerStatus
  | some .attributed => .attributed
  | some .ignored => .ignored
  | some .skipped => .pending
  | none => .pending

theorem settleOne_status_iff {t : Trigger} {result : TriggerResult}
    {outcome? : Option TriggerOutcome} (pending : t.status = .pending)
    (notSkipped : result ≠ .ok .skipped) (h : outcome? ≠ some .skipped) :
    (settleOne result t).status = statusAfter outcome? ↔ result.toOption = outcome? := by
  rcases result with e | (_ | _ | _) <;> rcases outcome? with _ | (_ | _ | _) <;>
    simp_all [settleOne, statusAfter, Except.toOption]

/-! ## A run -/

/-- What attempts make of a trigger. -/
def settle : List (String × TriggerResult) → Trigger → Trigger
  | [], t => t
  | (id, result) :: rest, t => if t.id = id then settleOne result t else settle rest t

theorem settle_cons (id : String) (result : TriggerResult) (rest : List (String × TriggerResult))
    (t : Trigger) :
    settle ((id, result) :: rest) t = if t.id = id then settleOne result t else settle rest t :=
  rfl

theorem settle_id (results : List (String × TriggerResult)) (t : Trigger) :
    (settle results t).id = t.id := by
  induction results with
  | nil => rfl
  | cons x rest ih =>
    unfold settle
    split_ifs
    · exact settleOne_id x.2 t
    · exact ih

theorem settle_of_notMem {results : List (String × TriggerResult)} {t : Trigger}
    (h : t.id ∉ results.map Prod.fst) : settle results t = t := by
  induction results with
  | nil => rfl
  | cons x rest ih =>
    rw [List.map_cons, List.mem_cons, not_or] at h
    unfold settle
    rw [if_neg h.1, ih h.2]

theorem settle_of_mem {results : List (String × TriggerResult)} {t : Trigger}
    {result : TriggerResult} (distinct : (results.map Prod.fst).Nodup)
    (mem : (t.id, result) ∈ results) : settle results t = settleOne result t := by
  induction results with
  | nil => cases mem
  | cons x rest ih =>
    obtain ⟨fresh, distinct⟩ := List.nodup_cons.1 distinct
    unfold settle
    rcases List.mem_cons.1 mem with rfl | mem
    · rw [if_pos rfl]
    · have ne : t.id ≠ x.1 := fun same => fresh (same ▸ List.mem_map_of_mem mem)
      rw [if_neg ne, ih distinct mem]

/-- What attempts at pending triggers do to the records. -/
structure Ran (before : Records) (ids : List String) (results : List (String × TriggerResult))
    (after : Records) : Prop where
  ids : results.map Prod.fst = ids
  triggers : after.triggers = before.triggers.map (settle results)
  skipped : ∀ x ∈ results, x.2 ≠ .ok .skipped
  kept : before.aggregateReports <+: after.aggregateReports

/-- The attempts that did not fail. -/
def succeeded (results : List (String × TriggerResult)) : List (String × TriggerResult) :=
  results.filter fun x => x.2.isOk

section

variable (wraps : b.Wraps view)
  (transactions : ∀ step, Works view (b.transact step) (Store.backend.transact step))

include wraps transactions

/-- An attempt at a pending trigger settles it and leaves the others alone. -/
theorem step_of_attempt {id : String} {result : TriggerResult}
    (reachable : (view s.store).Reachable) (closed : (view s.store).snapshot = none)
    (pending : ∀ t ∈ (view s.store).records.triggers, t.id = id → t.status = .pending)
    (h : attempt (process b cfg id) s = .ok result s') :
    (view s'.store).Reachable ∧ (view s'.store).snapshot = none ∧
      Ran (view s.store).records [id] [(id, result)] (view s'.store).records := by
  rcases attempt_process_cases wraps transactions cfg id closed with
    ⟨outcome, s₁, ok, same, closed'⟩ | ⟨e, s₁, failed, kept⟩
  · rw [ok] at h
    cases h
    obtain ⟨effect, -⟩ := effect_of_process closed same reachable.wellKeyed.records
    refine ⟨reachable_of_process closed same reachable, closed', rfl, effect.triggers_eq, ?_,
      effect.aggregateReports_prefix⟩
    intro x hx skipped
    rw [List.mem_singleton.1 hx] at skipped
    cases skipped
    exact effect.ne_skipped pending rfl
  · rw [failed] at h
    cases h
    rw [kept]
    refine ⟨reachable, closed, rfl, ?_, ?_, List.prefix_refl _⟩
    · simp only [settle, settleOne, ite_self, List.map_id']
    · intro x hx skipped
      rw [List.mem_singleton.1 hx] at skipped
      cases skipped

theorem ran_of_attempts {ids : List String} {results : List (String × TriggerResult)}
    (reachable : (view s.store).Reachable) (closed : (view s.store).snapshot = none)
    (distinct : ids.Nodup)
    (pending : ∀ t ∈ (view s.store).records.triggers, t.id ∈ ids → t.status = .pending)
    (h : attempts b cfg ids s = .ok results s') :
    Ran (view s.store).records ids results (view s'.store).records ∧
      (view s'.store).snapshot = none := by
  induction ids generalizing s results with
  | nil =>
    cases h
    refine ⟨⟨rfl, ?_, fun x hx => (List.not_mem_nil hx).elim, List.prefix_refl _⟩, closed⟩
    exact (List.map_id _).symm
  | cons id rest ih =>
    obtain ⟨fresh, distinct⟩ := List.nodup_cons.1 distinct
    obtain ⟨result, s₁, others, first, others_ran, rfl⟩ := attempts_cons_eq_ok h
    obtain ⟨reachable₁, closed₁, step⟩ := step_of_attempt wraps transactions reachable closed
      (fun t ht same => pending t ht (same ▸ List.mem_cons_self)) first
    have pending₁ : ∀ t ∈ (view s₁.store).records.triggers, t.id ∈ rest → t.status = .pending := by
      intro t ht mem
      rw [step.triggers] at ht
      obtain ⟨t₀, ht₀, rfl⟩ := List.mem_map.1 ht
      rw [settle_id] at mem
      have ne : t₀.id ≠ id := fun same => fresh (same ▸ mem)
      rw [settle_cons, if_neg ne]
      exact pending t₀ ht₀ (List.mem_cons_of_mem id mem)
    obtain ⟨ran, closed'⟩ := ih reachable₁ closed₁ distinct pending₁ others_ran
    refine ⟨⟨?_, ?_, ?_, step.kept.trans ran.kept⟩, closed'⟩
    · rw [List.map_cons, ran.ids]
    · rw [ran.triggers, step.triggers, List.map_map]
      apply List.map_congr_left
      intro t _
      rw [Function.comp_apply, settle_cons, settle_cons]
      by_cases same : t.id = id
      · rw [if_pos same, if_pos same]
        apply settle_of_notMem
        rw [settleOne_id, same, ran.ids]
        exact fresh
      · rw [if_neg same, if_neg same]
        rfl
    · intro x hx
      rcases List.mem_cons.1 hx with rfl | hx
      · exact step.skipped _ (List.mem_singleton_self _)
      · exact ran.skipped x hx

/-- Without the triggers that fail, attempts over the store itself lead to the same records up to
delays. -/
theorem attempts_succeeded {ids : List String} {results : List (String × TriggerResult)}
    {t : JobState Store} (closed : (view s.store).snapshot = none)
    (closed_t : t.store.snapshot = none)
    (same : (view s.store).records.withoutDelays = t.store.records.withoutDelays)
    (h : attempts b cfg ids s = .ok results s') :
    ∃ t', attempts Store.backend cfg ((succeeded results).map Prod.fst) t =
        .ok (succeeded results) t' ∧ t'.store.snapshot = none ∧
      (view s'.store).records.withoutDelays = t'.store.records.withoutDelays := by
  induction ids generalizing s t results with
  | nil =>
    cases h
    exact ⟨t, rfl, closed_t, same⟩
  | cons id rest ih =>
    obtain ⟨result, s₁, others, first, others_ran, rfl⟩ := attempts_cons_eq_ok h
    rcases attempt_process_cases wraps transactions cfg id closed with
      ⟨outcome, s₂, ok, done, closed₁⟩ | ⟨e, s₂, failed, kept⟩
    · rw [ok] at first
      cases first
      obtain ⟨t₁, done_t, closed_t₁, same₁⟩ := process_withoutDelays closed closed_t same done
      obtain ⟨t', ran, closed_t', same'⟩ := ih closed₁ closed_t₁ same₁ others_ran
      have first_t : attempt (process Store.backend cfg id) t = .ok (.ok outcome) t₁ := by
        unfold attempt
        rw [done_t]
      refine ⟨t', ?_, closed_t', same'⟩
      show attempts Store.backend cfg (id :: (succeeded others).map Prod.fst) t = _
      rw [attempts_cons first_t, ran]
      rfl
    · rw [failed] at first
      cases first
      rw [← kept] at same closed
      obtain ⟨t', ran, closed_t', same'⟩ := ih closed closed_t same others_ran
      exact ⟨t', ran, closed_t', same'⟩

end

end Job

end AttributionReporting
