import AttributionReporting.Proofs.Job.Plan
import AttributionReporting.Proofs.Store.Keeps
import AttributionReporting.Proofs.Store.Wrapped

/-!
# The job over a store that may fail

Whenever a step of the job succeeds over a store that may fail, it answers and changes the store as
it would over the store itself, with the same numbers from the generator (`Tracks`). However it
ends, it leaves an open transaction as it is. Both hold of every call that the job makes between
the beginning and the end of a transaction, and so of dealing with a trigger
(`tracks_attributeTrigger`).
-/

namespace AttributionReporting

variable {σ α β : Type}

/-- The same state with the store that `view` shows. -/
def JobState.through (view : σ → Store) (s : JobState σ) : JobState Store := ⟨view s.store, s.draws⟩

namespace Job

variable {view : σ → Store} {b : Backend σ} {cfg : JobConfig} {source : Source} {trigger : Trigger}

/-- When `x` succeeds, `y` does the same to the store that `view` shows. However `x` ends, the open
transaction stays as it is. -/
structure Tracks (view : σ → Store) (x : Step σ α) (y : Step Store α) : Prop where
  ok : ∀ {s a s'}, x s = .ok a s' → y (s.through view) = .ok a (s'.through view) ∧
    (view s'.store).snapshot = (view s.store).snapshot
  error : ∀ {s e s'}, x s = .error e s' → (view s'.store).snapshot = (view s.store).snapshot

/-! ## Rules -/

theorem tracks_pure (view : σ → Store) (a : α) :
    Tracks view (pure a : Step σ α) (pure a : Step Store α) := by
  constructor
  · intro s a' s' h
    cases h
    exact ⟨rfl, rfl⟩
  · intro s e s' h
    cases h

theorem tracks_draw (view : σ → Store) (f : Draws → α × Draws) :
    Tracks view (draw f : Step σ α) (draw f : Step Store α) := by
  constructor
  · intro s a s' h
    cases h
    exact ⟨rfl, rfl⟩
  · intro s e s' h
    cases h

theorem Tracks.bind {x : Step σ α} {y : Step Store α} {f : α → Step σ β} {g : α → Step Store β}
    (first : Tracks view x y) (second : ∀ a, Tracks view (f a) (g a)) :
    Tracks view (x >>= f) (y >>= g) := by
  constructor
  · intro s c s' h
    rw [bind_eq] at h
    cases hx : x s with
    | error e s₁ =>
      rw [hx] at h
      cases h
    | ok a s₁ =>
      rw [hx] at h
      obtain ⟨same, kept⟩ := first.ok hx
      obtain ⟨same', kept'⟩ := (second a).ok h
      rw [bind_eq, same]
      exact ⟨same', kept'.trans kept⟩
  · intro s e s' h
    rw [bind_eq] at h
    cases hx : x s with
    | error e s₁ =>
      rw [hx] at h
      cases h
      exact first.error hx
    | ok a s₁ =>
      rw [hx] at h
      exact ((second a).error h).trans (first.ok hx).2

/-- A call on a job is what the call is on its store. -/
theorem call_eq_ok_iff {act : EStateM StoreError σ α} {s s' : JobState σ} {a : α} :
    call act s = .ok a s' ↔ act s.store = .ok a s'.store ∧ s'.draws = s.draws := by
  obtain ⟨store, draws⟩ := s'
  unfold call
  cases act s.store <;> simp [eq_comm, and_assoc]

theorem call_eq_error_iff {act : EStateM StoreError σ α} {s s' : JobState σ} {e : StoreError} :
    call act s = .error e s' ↔ act s.store = .error e s'.store ∧ s'.draws = s.draws := by
  obtain ⟨store, draws⟩ := s'
  unfold call
  cases act s.store <;> simp [eq_comm, and_assoc]

section

variable {act : EStateM StoreError σ α} {real : EStateM StoreError Store α}

theorem mayFail_call (may : MayFail view act real) :
    MayFail (JobState.through view) (call act) (call real) := by
  constructor
  · intro s a s' h
    obtain ⟨ok, draws⟩ := call_eq_ok_iff.1 h
    exact call_eq_ok_iff.2 ⟨may.ok ok, draws⟩
  · intro s e s' h
    obtain ⟨failed, draws⟩ := call_eq_error_iff.1 h
    rcases may.error failed with same | failed
    · left
      unfold JobState.through
      rw [same, draws]
    · exact .inr (call_eq_error_iff.2 ⟨failed, draws⟩)

theorem works_call (works : Works view act real) :
    Works (JobState.through view) (call act) (call real) := by
  refine ⟨(mayFail_call works.mayFail).ok, ?_⟩
  intro s e s' h
  obtain ⟨failed, draws⟩ := call_eq_error_iff.1 h
  exact call_eq_error_iff.2 ⟨works.error failed, draws⟩

theorem tracks_call (may : MayFail view act real)
    (keeps : ∀ snapshot, Keeps (fun store => store.snapshot = snapshot) real) :
    Tracks view (call act) (call real) := by
  constructor
  · intro s a s' h
    exact ⟨(mayFail_call may).ok h, (keeps _).ok rfl (may.ok (call_eq_ok_iff.1 h).1)⟩
  · intro s e s' h
    rcases may.error (call_eq_error_iff.1 h).1 with same | failed
    · rw [same]
    · exact (keeps _).error rfl failed

end

section

variable (wraps : b.Wraps view)

include wraps

theorem tracks_ask (query : Query α) : Tracks view (ask b query) (ask Store.backend query) :=
  tracks_call (wraps.ask query) fun _ => Store.keeps_ask _ query

theorem tracks_write (writes : List Write) :
    Tracks view (write b writes) (write Store.backend writes) := by
  induction writes with
  | nil => exact tracks_pure view ()
  | cons w rest ih =>
    exact (tracks_call (wraps.write w) (Store.keeps_snapshot_write w)).bind fun _ => ih

theorem tracks_write_pure (writes : List Write) (a : α) :
    Tracks view (write b writes >>= fun _ => pure a)
      (write Store.backend writes >>= fun _ => pure a) :=
  (tracks_write wraps writes).bind fun _ => tracks_pure view a

/-! ## The steps of the job -/

theorem tracks_ignore (trigger : Trigger) :
    Tracks view (ignore b trigger) (ignore Store.backend trigger) :=
  tracks_write_pure wraps [.setTriggerStatus [trigger.id] .ignored] TriggerOutcome.ignored

theorem tracks_eventPath (cfg : JobConfig) (source : Source) (trigger : Trigger) :
    Tracks view (eventPath b cfg source trigger) (eventPath Store.backend cfg source trigger) := by
  unfold eventPath
  cases selectDatum source trigger with
  | none => exact tracks_pure view false
  | some datum =>
    refine (tracks_ask wraps _).bind fun count => ?_
    split_ifs with full
    · exact tracks_pure view false
    · refine (tracks_ask wraps _).bind fun existing => ?_
      cases planEvent cfg source trigger datum existing with
      | none => exact tracks_pure view false
      | some writes => exact tracks_write_pure wraps writes true

theorem tracks_aggregatePath (cfg : JobConfig) (source : Source) (trigger : Trigger) :
    Tracks view (aggregatePath b cfg source trigger)
      (aggregatePath Store.backend cfg source trigger) := by
  unfold aggregatePath
  refine (tracks_draw view _).bind fun decision => ?_
  cases decision with
  | drop reason => exact tracks_pure view false
  | insert report dedupKey =>
    refine (tracks_ask wraps _).bind fun count => ?_
    split_ifs with full
    · exact tracks_pure view false
    · exact tracks_write_pure wraps _ true

theorem tracks_limitReached (cfg : JobConfig) (source : Source) (trigger : Trigger) :
    Tracks view (limitReached b cfg source trigger)
      (limitReached Store.backend cfg source trigger) := by
  unfold limitReached
  refine (tracks_ask wraps _).bind fun attributions => ?_
  split_ifs with tooMany
  · exact tracks_pure view true
  · exact (tracks_ask wraps _).bind fun enrollments => tracks_pure view _

theorem tracks_credit (cfg : JobConfig) (source : Source) (losers : List Source)
    (trigger : Trigger) :
    Tracks view (credit b cfg source losers trigger)
      (credit Store.backend cfg source losers trigger) := by
  unfold credit
  refine (tracks_eventPath wraps cfg source trigger).bind fun event => ?_
  refine (tracks_aggregatePath wraps cfg source trigger).bind fun aggregate => ?_
  split_ifs with led
  · exact tracks_write_pure wraps _ TriggerOutcome.attributed
  · exact tracks_ignore wraps trigger

theorem tracks_attributePending (cfg : JobConfig) (trigger : Trigger) :
    Tracks view (attributePending b cfg trigger)
      (attributePending Store.backend cfg trigger) := by
  unfold attributePending
  refine (tracks_ask wraps _).bind fun sources => ?_
  cases selectSource sources trigger with
  | none => exact tracks_ignore wraps trigger
  | some winner =>
    obtain ⟨source, losers⟩ := winner
    dsimp only
    split_ifs with pass
    · refine (tracks_limitReached wraps cfg source trigger).bind fun blocked => ?_
      split_ifs with stop
      · exact tracks_ignore wraps trigger
      · exact tracks_credit wraps cfg source losers trigger
    · exact tracks_ignore wraps trigger

theorem tracks_attributeTrigger (cfg : JobConfig) (id : String) :
    Tracks view (attributeTrigger b cfg id) (attributeTrigger Store.backend cfg id) := by
  unfold attributeTrigger
  refine (tracks_ask wraps _).bind fun trigger => ?_
  split_ifs with done
  · exact tracks_pure view TriggerOutcome.skipped
  · exact tracks_attributePending wraps cfg trigger

end

end Job

end AttributionReporting
