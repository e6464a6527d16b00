import AttributionReporting.Store.Backend

/-!
# What calls keep

A call keeps a property of the state when the property still holds after it, whether the call
succeeds or fails (`Keeps`). Calls in turn keep what each of them keeps, and a call that only reads
or changes records keeps the open transaction. Where each of several calls does the same to what a
function shows of the state as another call does, so do all of them in turn (`forM_mapState`).
-/

namespace AttributionReporting

variable {τ α : Type}

theorem forM_cons_eq {β : Type} (act : β → EStateM StoreError τ Unit) (b : β) (rest : List β)
    (s : τ) :
    (b :: rest).forM act s =
      match act b s with
      | .ok _ s => rest.forM act s
      | .error e s => .error e s := by
  show EStateM.bind _ _ s = _
  unfold EStateM.bind
  cases act b s <;> rfl

/-- A call after which a property still holds if it held before, however the call ends. -/
structure Keeps (inv : τ → Prop) (act : EStateM StoreError τ α) : Prop where
  ok : ∀ {s a s'}, inv s → act s = .ok a s' → inv s'
  error : ∀ {s e s'}, inv s → act s = .error e s' → inv s'

theorem Keeps.forM {inv : τ → Prop} {β : Type} {act : β → EStateM StoreError τ Unit} {l : List β}
    (keeps : ∀ b ∈ l, Keeps inv (act b)) : Keeps inv (l.forM act) := by
  induction l with
  | nil =>
    constructor
    · intro s a s' start h
      cases h
      exact start
    · intro s e s' _ h
      cases h
  | cons b rest ih =>
    obtain ⟨one, others⟩ := List.forall_mem_cons.1 keeps
    constructor
    · intro s a s' start h
      rw [forM_cons_eq] at h
      cases first : act b s with
      | ok _ s₁ =>
        rw [first] at h
        exact (ih others).ok (one.ok start first) h
      | error e s₁ =>
        rw [first] at h
        cases h
    · intro s e s' start h
      rw [forM_cons_eq] at h
      cases first : act b s with
      | ok _ s₁ =>
        rw [first] at h
        exact (ih others).error (one.ok start first) h
      | error e' s₁ =>
        rw [first] at h
        cases h
        exact one.error start first

/-- A call that does nothing when it fails. -/
theorem Keeps.of_cases {inv : τ → Prop} {act : EStateM StoreError τ α}
    (ends : ∀ s, inv s → (∃ a s', act s = .ok a s' ∧ inv s') ∨ ∃ e, act s = .error e s) :
    Keeps inv act := by
  constructor
  · intro s a s' start h
    rcases ends s start with ⟨_, _, eq, after⟩ | ⟨_, eq⟩
    · rw [eq] at h
      cases h
      exact after
    · rw [eq] at h
      cases h
  · intro s e s' start h
    rcases ends s start with ⟨_, _, eq, -⟩ | ⟨_, eq⟩
    · rw [eq] at h
      cases h
    · rw [eq] at h
      cases h
      exact start

theorem keeps_true (act : EStateM StoreError τ α) : Keeps (fun _ => True) act :=
  ⟨fun _ _ => trivial, fun _ _ => trivial⟩

/-! ## A part of the state -/

/-- The end of a call, with what `view` shows of the state. -/
def mapState {υ : Type} (view : τ → υ) :
    EStateM.Result StoreError τ α → EStateM.Result StoreError υ α
  | .ok a s => .ok a (view s)
  | .error e s => .error e (view s)

theorem mapState_eq_ok_iff {υ : Type} {view : τ → υ} {x : EStateM.Result StoreError τ α} {a : α}
    {shown : υ} : mapState view x = .ok a shown ↔ ∃ s, x = .ok a s ∧ view s = shown := by
  cases x <;> simp [mapState, and_assoc]

/-- Calls in turn do to what is shown what others do there, as long as a property holds that all of
them keep. -/
theorem forM_mapState {υ β : Type} (view : τ → υ) (inv : τ → Prop)
    {act : β → EStateM StoreError τ Unit} {shown : β → EStateM StoreError υ Unit} {l : List β}
    (keeps : ∀ b ∈ l, Keeps inv (act b))
    (one : ∀ b ∈ l, ∀ s, inv s → shown b (view s) = mapState view (act b s)) {s : τ}
    (start : inv s) : l.forM shown (view s) = mapState view (l.forM act s) := by
  induction l generalizing s with
  | nil => rfl
  | cons b rest ih =>
    obtain ⟨keep, keeps⟩ := List.forall_mem_cons.1 keeps
    obtain ⟨first, others⟩ := List.forall_mem_cons.1 one
    rw [forM_cons_eq, forM_cons_eq, first s start]
    cases step : act b s with
    | ok _ s₁ => exact ih keeps others (keep.ok start step)
    | error e s₁ => rfl

namespace Store

theorem change_eq_ok_iff {act : EStateM StoreError Records α} {s s' : Store} {a : α} :
    change act s = .ok a s' ↔
      act s.records = .ok a s'.records ∧ s'.snapshot = s.snapshot := by
  obtain ⟨records, snapshot⟩ := s'
  unfold change
  cases act s.records <;> simp [eq_comm, and_assoc]

theorem change_eq_error_iff {act : EStateM StoreError Records α} {s s' : Store} {e : StoreError} :
    change act s = .error e s' ↔
      act s.records = .error e s'.records ∧ s'.snapshot = s.snapshot := by
  obtain ⟨records, snapshot⟩ := s'
  unfold change
  cases act s.records <;> simp [eq_comm, and_assoc]

/-- A change keeps the open transaction, and of the records what it keeps of them. -/
theorem keeps_change {inv : Records → Prop} {act : EStateM StoreError Records α}
    (keeps : Keeps inv act) (snapshot : Option Records) :
    Keeps (fun s => inv s.records ∧ s.snapshot = snapshot) (change act) := by
  constructor
  · intro s a s' start h
    obtain ⟨records, same⟩ := change_eq_ok_iff.1 h
    exact ⟨keeps.ok start.1 records, same.trans start.2⟩
  · intro s e s' start h
    obtain ⟨records, same⟩ := change_eq_error_iff.1 h
    exact ⟨keeps.error start.1 records, same.trans start.2⟩

theorem ask_eq_ok_iff {query : Query α} {s s' : Store} {a : α} :
    backend.ask query s = .ok a s' ↔ query.answer s.records = .ok a ∧ s' = s := by
  simp only [backend]
  cases query.answer s.records <;> simp [eq_comm]

theorem ask_eq_error_iff {query : Query α} {s s' : Store} {e : StoreError} :
    backend.ask query s = .error e s' ↔ query.answer s.records = .error e ∧ s' = s := by
  simp only [backend]
  cases query.answer s.records <;> simp [eq_comm]

/-- A question keeps everything. -/
theorem keeps_ask (inv : Store → Prop) (query : Query α) : Keeps inv (backend.ask query) := by
  constructor
  · intro s a s' start h
    rw [(ask_eq_ok_iff.1 h).2]
    exact start
  · intro s e s' start h
    rw [(ask_eq_error_iff.1 h).2]
    exact start

/-- A write keeps the open transaction. -/
theorem keeps_snapshot_write (w : Write) (snapshot : Option Records) :
    Keeps (fun s => s.snapshot = snapshot) (backend.write w) := by
  constructor
  · intro s a s' start h
    exact (change_eq_ok_iff.1 h).2.trans start
  · intro s e s' start h
    exact (change_eq_error_iff.1 h).2.trans start

end Store

end AttributionReporting
