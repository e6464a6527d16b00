import AttributionReporting.Proofs.Job.Capacity
import AttributionReporting.Proofs.Job.Wrapped
import AttributionReporting.Store.Countdown
import Mathlib

/-!
# What a failed trigger leaves behind

Over a store that may fail at any call, but whose rollback works, a transaction ends in one of three
ways (`transactionally_cases`): it succeeds as it would over the store itself, it fails and leaves
the store as it was, or its commit fails. A failed commit is not followed by a rollback. So a
trigger that fails leaves nothing behind if and only if it is not the commit that fails
(`rolledBack_iff`); otherwise all its effects stay, and with them the open transaction, because of
which no other trigger can be processed any more.
-/

namespace AttributionReporting

namespace Job

section

variable {s : JobState Store} {records : Records}

theorem call_begin (closed : s.store.snapshot = none) :
    call (Store.backend.transact .begin) s =
      .ok () ⟨⟨s.store.records, some s.store.records⟩, s.draws⟩ := by
  simp only [call, Store.backend, Store.transact, closed]

theorem call_begin_of_open (left : s.store.snapshot = some records) :
    call (Store.backend.transact .begin) s = .error .transactionInProgress s := by
  simp only [call, Store.backend, Store.transact, left]

theorem call_commit (left : s.store.snapshot = some records) :
    call (Store.backend.transact .commit) s = .ok () ⟨⟨s.store.records, none⟩, s.draws⟩ := by
  simp only [call, Store.backend, Store.transact, left]

theorem call_rollback (left : s.store.snapshot = some records) :
    call (Store.backend.transact .rollback) s = .ok () ⟨⟨records, none⟩, s.draws⟩ := by
  simp only [call, Store.backend, Store.transact, left]

end

variable {σ α : Type} {view : σ → Store} {b : Backend σ} {cfg : JobConfig} {s : JobState σ}

/-! ## Calls of a transaction -/

section

variable {act : EStateM StoreError σ α} {real : EStateM StoreError Store α} {a : α}
  {t : JobState Store} {s' : JobState σ}

/-- A call that succeeds where the store would leaves what the store would leave. -/
theorem through_of_ok (may : MayFail view act real) (real_ok : call real (s.through view) = .ok a t)
    {a' : α} (h : call act s = .ok a' s') : s'.through view = t := by
  have same := (mayFail_call may).ok h
  rw [real_ok] at same
  exact (EStateM.Result.ok.inj same).2.symm

/-- A call that fails where the store would not leaves everything as it was. -/
theorem through_of_error (may : MayFail view act real)
    (real_ok : call real (s.through view) = .ok a t) {e : StoreError}
    (h : call act s = .error e s') : s'.through view = s.through view := by
  rcases (mayFail_call may).error h with same | impossible
  · exact same
  · rw [real_ok] at impossible
    cases impossible

end

/-- In an open transaction, a rollback that works returns to the beginning. -/
theorem call_rollback_of_works
    (rollback : Works view (b.transact .rollback) (Store.backend.transact .rollback))
    {records : Records} (left : (view s.store).snapshot = some records) :
    ∃ s', call (b.transact .rollback) s = .ok () s' ∧ view s'.store = ⟨records, none⟩ := by
  have real := call_rollback (s := s.through view) left
  cases rolled : call (b.transact .rollback) s with
  | error e s' =>
    have impossible := (works_call rollback).error rolled
    rw [real] at impossible
    cases impossible
  | ok _ s' =>
    have back := through_of_ok rollback.mayFail real rolled
    exact ⟨s', rfl, congrArg JobState.store back⟩

/-! ## Whole transactions -/

/-- The step comes to its end in a transaction that cannot be committed then. -/
def CommitFails (b : Backend σ) (step : Step σ α) (s : JobState σ) : Prop :=
  ∃ opened a done e s', call (b.transact .begin) s = .ok () opened ∧ step opened = .ok a done ∧
    call (b.transact .commit) done = .error e s'

/-- How a transaction may end over a store that may fail. -/
inductive TransactionEnd (view : σ → Store) (b : Backend σ) (x : Step σ α) (y : Step Store α)
    (s : JobState σ) : Prop
  /-- It does the same as over the store itself. -/
  | done (a : α) (s' : JobState σ) (ok : transactionally b x s = .ok a s')
      (same : transactionally Store.backend y (s.through view) = .ok a (s'.through view))
      (closed : (view s'.store).snapshot = none)
  /-- It does nothing. -/
  | undone (e : StoreError) (s' : JobState σ) (failed : transactionally b x s = .error e s')
      (kept : view s'.store = view s.store) (commit : ¬ CommitFails b x s)
  /-- It does the same as over the store itself, except that the transaction stays open. -/
  | stuck (e : StoreError) (s' : JobState σ) (failed : transactionally b x s = .error e s')
      (commit : CommitFails b x s) (a : α)
      (same : transactionally Store.backend y (s.through view) =
        .ok a ⟨⟨(view s'.store).records, none⟩, s'.draws⟩)
      (left : (view s'.store).snapshot = some (view s.store).records)

theorem transactionally_cases (wraps : b.Wraps view)
    (rollback : Works view (b.transact .rollback) (Store.backend.transact .rollback))
    {x : Step σ α} {y : Step Store α} (tracks : Tracks view x y)
    (closed : (view s.store).snapshot = none) : TransactionEnd view b x y s := by
  have real_begins := call_begin (s := s.through view) closed
  cases began : call (b.transact .begin) s with
  | error e s' =>
    have same := through_of_error (wraps.transact .begin) real_begins began
    refine .undone e s' (by simp only [transactionally, began]) (congrArg JobState.store same) ?_
    rintro ⟨_, _, _, _, _, opens, -⟩
    rw [began] at opens
    cases opens
  | ok _ opened =>
    have opened_eq := through_of_ok (wraps.transact .begin) real_begins began
    have isOpen : (view opened.store).snapshot = some (view s.store).records :=
      congrArg (fun t => t.store.snapshot) opened_eq
    cases ran : x opened with
    | error e failed =>
      obtain ⟨s', rolled, back⟩ := call_rollback_of_works rollback ((tracks.error ran).trans isOpen)
      refine .undone e s' (by simp only [transactionally, began, ran, rolled]) ?_ ?_
      · rw [back, ← closed]
      · rintro ⟨_, _, _, _, _, opens, runs, -⟩
        rw [began] at opens
        cases opens
        rw [ran] at runs
        cases runs
    | ok a done =>
      obtain ⟨real_ran, kept⟩ := tracks.ok ran
      have still := kept.trans isOpen
      have real_commits := call_commit (s := done.through view) still
      have real : transactionally Store.backend y (s.through view) =
          .ok a ⟨⟨(view done.store).records, none⟩, done.draws⟩ := by
        rw [opened_eq] at real_ran
        simp only [transactionally, real_begins]
        rw [real_ran]
        simp only [real_commits]
        rfl
      cases committed : call (b.transact .commit) done with
      | ok _ s' =>
        have eq := through_of_ok (wraps.transact .commit) real_commits committed
        refine .done a s' (by simp only [transactionally, began, ran, committed]) ?_ ?_
        · rw [real, eq]
          rfl
        · exact congrArg (fun t => t.store.snapshot) eq
      | error e s' =>
        have same := through_of_error (wraps.transact .commit) real_commits committed
        have store_eq : view s'.store = view done.store := congrArg JobState.store same
        have draws_eq : s'.draws = done.draws :=
          congrArg (fun t : JobState Store => t.draws) same
        refine .stuck e s' (by simp only [transactionally, began, ran, committed])
          ⟨opened, a, done, e, s', began, ran, committed⟩ a ?_ ?_
        · rw [real, store_eq, draws_eq]
        · rw [store_eq]
          exact still

/-- A commit that works does not fail after a step that keeps the transaction open. -/
theorem not_commitFails (begins : MayFail view (b.transact .begin) (Store.backend.transact .begin))
    (commits : Works view (b.transact .commit) (Store.backend.transact .commit)) {x : Step σ α}
    {y : Step Store α} (tracks : Tracks view x y) (closed : (view s.store).snapshot = none) :
    ¬ CommitFails b x s := by
  rintro ⟨opened, a, done, e, s', began, ran, failed⟩
  have opened_eq := through_of_ok begins (call_begin (s := s.through view) closed) began
  have isOpen : (view opened.store).snapshot = some (view s.store).records :=
    congrArg (fun t => t.store.snapshot) opened_eq
  have still := (tracks.ok ran).2.trans isOpen
  have impossible := (works_call commits).error failed
  rw [call_commit (s := done.through view) still] at impossible
  cases impossible

/-- While a transaction is open no trigger is processed. -/
theorem process_of_left_open (wraps : b.Wraps view) {records : Records}
    (left : (view s.store).snapshot = some records) (id : String) :
    ∃ e s', process b cfg id s = .error e s' ∧ view s'.store = view s.store := by
  have refused := call_begin_of_open (s := s.through view) left
  cases began : call (b.transact .begin) s with
  | ok _ opened =>
    have impossible := (mayFail_call (wraps.transact .begin)).ok began
    rw [refused] at impossible
    cases impossible
  | error e s' =>
    refine ⟨e, s', by simp only [process, transactionally, began], ?_⟩
    rcases (mayFail_call (wraps.transact .begin)).error began with same | failed
    · exact congrArg JobState.store same
    · rw [refused] at failed
      exact (congrArg JobState.store (EStateM.Result.error.inj failed).2).symm

/-- A trigger that fails leaves the store as it was if and only if it is not the commit that fails.
When it is, the trigger has had all its effects, and no other one can be processed. -/
theorem rolledBack_iff (wraps : b.Wraps view)
    (rollback : Works view (b.transact .rollback) (Store.backend.transact .rollback))
    (closed : (view s.store).snapshot = none) {id : String} {e : StoreError} {s' : JobState σ}
    (failed : process b cfg id s = .error e s') :
    (view s'.store = view s.store ↔ ¬ CommitFails b (attributeTrigger b cfg id) s) ∧
      (CommitFails b (attributeTrigger b cfg id) s →
        (∃ outcome, process Store.backend cfg id (s.through view) =
          .ok outcome ⟨⟨(view s'.store).records, none⟩, s'.draws⟩) ∧
        (view s'.store).snapshot = some (view s.store).records ∧
        ∀ next, ∃ e' s'', process b cfg next s' = .error e' s'' ∧
          view s''.store = view s'.store) := by
  have ends : TransactionEnd view b (attributeTrigger b cfg id)
      (attributeTrigger Store.backend cfg id) s :=
    transactionally_cases wraps rollback (tracks_attributeTrigger wraps cfg id) closed
  cases ends with
  | done a t ok same _ =>
    have impossible := ok.symm.trans failed
    cases impossible
  | undone e' t failed' kept commit =>
    obtain ⟨rfl, rfl⟩ := EStateM.Result.error.inj (failed'.symm.trans failed)
    exact ⟨iff_of_true kept commit, fun fails => absurd fails commit⟩
  | stuck e' t failed' commit outcome same left =>
    obtain ⟨rfl, rfl⟩ := EStateM.Result.error.inj (failed'.symm.trans failed)
    have changed : view t.store ≠ view s.store := by
      intro kept
      rw [kept, closed] at left
      cases left
    exact ⟨iff_of_false changed (not_not_intro commit),
      fun _ => ⟨⟨outcome, same⟩, left, process_of_left_open wraps left⟩⟩

/-- A store whose calls run out, except for the rollback. -/
def sampleBackend : Backend (Countdown × Store) :=
  .gated (Backend.sparing (· == .transaction .rollback) Countdown.gate) Store.backend

theorem sampleBackend_rollback_works :
    Works Prod.snd (sampleBackend.transact .rollback) (Store.backend.transact .rollback) :=
  Backend.works_transact_sparing rfl Countdown.gate Store.backend

/-- The sample source with a trigger that leads to a report, when calls of one kind do not work. -/
def sampleBreaking (kind : CallKind) : JobState (Countdown × Store) :=
  ⟨(Countdown.arm kind 0 [],
    { records := { sources := [Sample.source], triggers := [sampleTrigger "trigger1"] } }), []⟩

/-- The report of the trigger cannot be inserted. -/
theorem rolledBack_iff_sample :
    let s := sampleBreaking .insertEventReport
    process sampleBackend sampleConfig "trigger1" s = .error .unavailable s ∧
      ¬ CommitFails sampleBackend (attributeTrigger sampleBackend sampleConfig "trigger1") s := by
  intro s
  have failed : process sampleBackend sampleConfig "trigger1" s = .error .unavailable s := by cbv
  exact ⟨failed, (rolledBack_iff (Backend.wraps_gated _) sampleBackend_rollback_works rfl
    failed).1.1 rfl⟩

/-- The commit does not work. Although the trigger fails, its attribution stays. -/
theorem commit_not_rolledBack :
    let s := sampleBreaking (.transaction .commit)
    sampleBackend.Wraps Prod.snd ∧
      Works Prod.snd (sampleBackend.transact .rollback) (Store.backend.transact .rollback) ∧
      s.store.2.snapshot = none ∧ s.store.2.records.attributions = [] ∧
      ∃ s', process sampleBackend sampleConfig "trigger1" s = .error .unavailable s' ∧
        s'.store.2.snapshot ≠ none ∧
        s'.store.2.records.attributions =
          [Attribution.of Sample.source (sampleTrigger "trigger1")] := by
  intro s
  refine ⟨Backend.wraps_gated _, sampleBackend_rollback_works, rfl, rfl, ?_⟩
  have ends : EStateM.run' (do
      let result ← attempt (process sampleBackend sampleConfig "trigger1")
      let s' ← get
      return (result, s'.store.2.snapshot.isSome, s'.store.2.records.attributions)) s =
        some (.error .unavailable, true,
          [Attribution.of Sample.source (sampleTrigger "trigger1")]) := by
    cbv
  rw [EStateM.run', EStateM.run, bind_eq, attempt] at ends
  cases ran : process sampleBackend sampleConfig "trigger1" s with
  | ok outcome s' =>
    rw [ran] at ends
    cases ends
  | error e s' =>
    rw [ran] at ends
    obtain ⟨result, found⟩ := Prod.mk.inj (Option.some.inj ends)
    obtain ⟨left, attributed⟩ := Prod.mk.inj found
    cases result
    exact ⟨s', rfl, Option.isSome_iff_ne_none.1 left, attributed⟩

end Job

end AttributionReporting
