import AttributionReporting.Store.Backend

/-!
# Stores that may fail

A store in memory may sit behind something that lets some of its calls fail. Of a backend with
states of type `σ`, `view` shows the store behind it, and `Backend.Wraps view b` says that every
call of `b` either does to that store what the store itself would do, with the same answer, or fails
and leaves it as it was. Which calls fail, and how, may depend on anything. A call that never fails
on its own account `Works`. A gate in front of the store is a case of this (`wraps_gated`).
-/

namespace AttributionReporting

variable {σ γ τ α : Type}

/-- A call does to the part of the state that `view` shows what `real` does, or it fails and leaves
that part as it was. -/
structure MayFail (view : σ → τ) (act : EStateM StoreError σ α) (real : EStateM StoreError τ α) :
    Prop where
  ok : ∀ {s a s'}, act s = .ok a s' → real (view s) = .ok a (view s')
  error : ∀ {s e s'}, act s = .error e s' → view s' = view s ∨ real (view s) = .error e (view s')

/-- A call fails only when `real` does. -/
structure Works (view : σ → τ) (act : EStateM StoreError σ α) (real : EStateM StoreError τ α) :
    Prop where
  ok : ∀ {s a s'}, act s = .ok a s' → real (view s) = .ok a (view s')
  error : ∀ {s e s'}, act s = .error e s' → real (view s) = .error e (view s')

theorem works_self (act : EStateM StoreError τ α) : Works id act act := ⟨fun h => h, fun h => h⟩

theorem Works.mayFail {view : σ → τ} {act : EStateM StoreError σ α} {real : EStateM StoreError τ α}
    (works : Works view act real) : MayFail view act real :=
  ⟨works.ok, fun h => .inr (works.error h)⟩

namespace Backend

/-- A backend that is the store in memory, except that any of its calls may fail without effect. -/
structure Wraps (view : σ → Store) (b : Backend σ) : Prop where
  transact : ∀ step, MayFail view (b.transact step) (Store.backend.transact step)
  ask : ∀ {α : Type} (query : Query α), MayFail view (b.ask query) (Store.backend.ask query)
  write : ∀ w, MayFail view (b.write w) (Store.backend.write w)

/-- The store in memory fails at no other calls than itself. -/
theorem wraps_self : Store.backend.Wraps id where
  transact step := (works_self (Store.backend.transact step)).mayFail
  ask query := (works_self (Store.backend.ask query)).mayFail
  write w := (works_self (Store.backend.write w)).mayFail

/-! ## Gates -/

/-- The three ways in which a call behind a gate may end. -/
theorem guarded_cases (gate : Gate γ) (kind : CallKind) (act : EStateM StoreError σ α) (g : γ)
    (s : σ) :
    ((gate kind g).1 = false ∧
      guarded gate kind act (g, s) = .error .unavailable ((gate kind g).2, s)) ∨
      (∃ a s', act s = .ok a s' ∧ guarded gate kind act (g, s) = .ok a ((gate kind g).2, s')) ∨
        ∃ e s', act s = .error e s' ∧
          guarded gate kind act (g, s) = .error e ((gate kind g).2, s') := by
  unfold guarded
  dsimp only
  rcases gate kind g with ⟨isOpen, g'⟩
  cases isOpen with
  | false => exact .inl ⟨rfl, rfl⟩
  | true =>
    right
    cases act s with
    | ok a s' => exact .inl ⟨a, s', rfl, rfl⟩
    | error e s' => exact .inr ⟨e, s', rfl, rfl⟩

theorem mayFail_guarded (gate : Gate γ) (kind : CallKind) (act : EStateM StoreError σ α) :
    MayFail Prod.snd (guarded gate kind act) act := by
  constructor
  · rintro ⟨g, s⟩ a s' h
    rcases guarded_cases gate kind act g s with ⟨-, eq⟩ | ⟨_, _, real, eq⟩ | ⟨_, _, -, eq⟩
    all_goals
      rw [eq] at h
      cases h
    exact real
  · rintro ⟨g, s⟩ e s' h
    rcases guarded_cases gate kind act g s with ⟨-, eq⟩ | ⟨_, _, -, eq⟩ | ⟨_, _, real, eq⟩
    all_goals
      rw [eq] at h
      cases h
    · exact .inl rfl
    · exact .inr real

theorem works_guarded {gate : Gate γ} {kind : CallKind} (isOpen : ∀ g, (gate kind g).1 = true)
    (act : EStateM StoreError σ α) : Works Prod.snd (guarded gate kind act) act := by
  refine ⟨(mayFail_guarded gate kind act).ok, ?_⟩
  rintro ⟨g, s⟩ e s' h
  rcases guarded_cases gate kind act g s with ⟨shut, -⟩ | ⟨_, _, -, eq⟩ | ⟨_, _, real, eq⟩
  · rw [isOpen g] at shut
    cases shut
  · rw [eq] at h
    cases h
  · rw [eq] at h
    cases h
    exact real

/-- A store behind a gate may fail. -/
theorem wraps_gated (gate : Gate γ) : (gated gate Store.backend).Wraps Prod.snd where
  transact step := mayFail_guarded gate (.transaction step) (Store.backend.transact step)
  ask query := mayFail_guarded gate query.kind (Store.backend.ask query)
  write w := mayFail_guarded gate w.kind (Store.backend.write w)

/-- A gate that stays open for calls of some kinds. -/
def sparing (spared : CallKind → Bool) (gate : Gate γ) : Gate γ := fun kind g =>
  if spared kind then (true, g) else gate kind g

theorem sparing_isOpen {spared : CallKind → Bool} {kind : CallKind} (h : spared kind = true)
    (gate : Gate γ) (g : γ) : (sparing spared gate kind g).1 = true := by
  unfold sparing
  rw [if_pos h]

theorem works_transact_sparing {spared : CallKind → Bool} {step : Transaction}
    (h : spared (.transaction step) = true) (gate : Gate γ) (b : Backend σ) :
    Works Prod.snd ((gated (sparing spared gate) b).transact step) (b.transact step) :=
  works_guarded (sparing_isOpen h gate) (b.transact step)

theorem works_ask_sparing {spared : CallKind → Bool} {query : Query α}
    (h : spared query.kind = true) (gate : Gate γ) (b : Backend σ) :
    Works Prod.snd ((gated (sparing spared gate) b).ask query) (b.ask query) :=
  works_guarded (sparing_isOpen h gate) (b.ask query)

end Backend

end AttributionReporting
