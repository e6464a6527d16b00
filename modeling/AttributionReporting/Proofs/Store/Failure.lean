import AttributionReporting.Proofs.Store.Effects
import AttributionReporting.Proofs.Store.Reachable
import AttributionReporting.Sample

/-!
# What failing calls leave behind

A call that fails leaves the store as it was, unless it sets the status of several records: then
the records before the first unknown id have been changed
(`ChangesUnderId.forM_known_of_error`), and the store is as it was only if each of them had that
status before (`Store.unchanged_iff_of_failed`).
-/

namespace AttributionReporting

/-! ## Calls in turn -/

section

variable {τ α β : Type}

/-- A call that changes nothing when it fails. -/
def Atomic (act : EStateM StoreError τ α) : Prop :=
  ∀ ⦃s e s'⦄, act s = .error e s' → s' = s

variable {act : β → EStateM StoreError τ Unit} {l : List β} {s s' : τ} {e : StoreError}

/-- Calls in turn stop at the first that fails, with what those before it did. -/
theorem exists_of_forM_eq_error (atomic : ∀ b, Atomic (act b)) (h : l.forM act s = .error e s') :
    ∃ before b after, l = before ++ b :: after ∧ before.forM act s = .ok () s' ∧
      act b s' = .error e s' := by
  induction l generalizing s with
  | nil => cases h
  | cons b rest ih =>
    rw [forM_cons_eq] at h
    cases first : act b s with
    | ok _ s₁ =>
      rw [first] at h
      obtain ⟨before, c, after, rfl, done, failed⟩ := ih h
      refine ⟨b :: before, c, after, rfl, ?_, failed⟩
      rw [forM_cons_eq, first]
      exact done
    | error e₁ s₁ =>
      rw [first] at h
      cases h
      obtain rfl := atomic b first
      exact ⟨[], b, rest, rfl, rfl, first⟩

/-- Calls that each see to something, and keep what the others saw to, change nothing exactly when
there was nothing to see to. -/
theorem unchanged_iff_of_forM (done : β → τ → Prop)
    (sees : ∀ b s s', act b s = .ok () s' → done b s') (keeps : ∀ b c, Keeps (done c) (act b))
    (idle : ∀ b s s', act b s = .ok () s' → done b s → s' = s) (h : l.forM act s = .ok () s') :
    s' = s ↔ ∀ b ∈ l, done b s := by
  constructor
  · rintro rfl
    suffices after : ∀ s, l.forM act s = .ok () s' → ∀ b ∈ l, done b s' from after s' h
    clear h
    induction l with
    | nil => exact fun _ _ b mem => absurd mem List.not_mem_nil
    | cons b rest ih =>
      intro s h
      rw [forM_cons_eq] at h
      cases first : act b s with
      | ok _ s₁ =>
        rw [first] at h
        have kept := (Keeps.forM fun c _ => keeps c b).ok (sees b s s₁ first) h
        exact List.forall_mem_cons.2 ⟨kept, ih s₁ h⟩
      | error e₁ s₁ =>
        rw [first] at h
        cases h
  · intro all
    induction l generalizing s with
    | nil =>
      cases h
      rfl
    | cons b rest ih =>
      obtain ⟨mine, others⟩ := List.forall_mem_cons.1 all
      rw [forM_cons_eq] at h
      cases first : act b s with
      | ok _ s₁ =>
        rw [first] at h
        obtain rfl := idle b s s₁ first mine
        exact ih h others
      | error e₁ s₁ =>
        rw [first] at h
        cases h

end

/-! ## Changed records -/

section

variable {α : Type} {key : α → String} {k : String} {f : α → α} {l l' : List α}

theorem modifyKey?_eq_none_iff :
    modifyKey? key k f l = none ↔ l.find? (key · == k) = none := by
  induction l with
  | nil => simp [modifyKey?]
  | cons a rest ih =>
    rw [modifyKey?, List.find?_cons]
    by_cases found : key a = k
    · simp [found]
    · rw [if_neg found, beq_eq_false_iff_ne.2 found, Option.map_eq_none_iff, ih]

/-- A change of the record with a key shows when that key is looked up, and for no other key. -/
theorem find?_of_modifyKey? (same : ∀ a, key (f a) = key a) (h : modifyKey? key k f l = some l')
    (other : String) :
    l'.find? (key · == other) =
      (l.find? (key · == other)).map fun a => if other = k then f a else a := by
  induction l generalizing l' with
  | nil => cases h
  | cons a rest ih =>
    unfold modifyKey? at h
    split_ifs at h with found
    · cases h
      rw [List.find?_cons, List.find?_cons, same]
      by_cases looked : key a = other
      · simp [looked, ← found]
      · have ne : other ≠ k := fun eq => looked (found.trans eq.symm)
        rw [beq_eq_false_iff_ne.2 looked]
        simp [ne]
    · obtain ⟨rest', changed, rfl⟩ := Option.map_eq_some_iff.1 h
      rw [List.find?_cons, List.find?_cons]
      by_cases looked : key a = other
      · have ne : other ≠ k := looked ▸ found
        simp [looked, ne]
      · rw [beq_eq_false_iff_ne.2 looked]
        exact ih changed

/-- A change that changes nothing of the record with the key changes nothing. -/
theorem eq_of_modifyKey? (h : modifyKey? key k f l = some l')
    (idle : ∀ a, l.find? (key · == k) = some a → f a = a) : l' = l := by
  induction l generalizing l' with
  | nil => cases h
  | cons a rest ih =>
    unfold modifyKey? at h
    split_ifs at h with found
    · cases h
      rw [idle a (by simp [found])]
    · obtain ⟨rest', changed, rfl⟩ := Option.map_eq_some_iff.1 h
      rw [ih changed fun b hb => idle b (by simpa [found] using hb)]

end

/-! ## Changes under several ids -/

/-- `act id` makes the change `f` to the record under that id in one part of the records, and fails
if there is none. -/
structure ChangesUnderId {α : Type} (act : String → EStateM StoreError Records Unit)
    (part : Records → List α) (key : α → String) (f : α → α) : Prop where
  same : ∀ a, key (f a) = key a
  again : ∀ a, f (f a) = f a
  ok : ∀ {id r r'}, act id r = .ok () r' → modifyKey? key id f (part r) = some (part r')
  idle : ∀ {id r r'}, act id r = .ok () r' → part r' = part r → r' = r
  error : ∀ {id r e r'}, act id r = .error e r' → modifyKey? key id f (part r) = none ∧ r' = r

namespace ChangesUnderId

variable {α : Type} {act : String → EStateM StoreError Records Unit} {part : Records → List α}
  {key : α → String} {f : α → α} {r r' : Records} {ids : List String} {e : StoreError}

/-- Whether there is a record under an id stays as it is. -/
theorem keeps_isSome (changes : ChangesUnderId act part key f) (id other : String) (known : Bool) :
    Keeps (fun r => ((part r).find? (key · == other)).isSome = known) (act id) := by
  constructor
  · intro r _ r' before h
    rw [find?_of_modifyKey? changes.same (changes.ok h), Option.isSome_map]
    exact before
  · intro r e r' before h
    rw [(changes.error h).2]
    exact before

/-- A record that the change leaves as it is stays as it is. -/
theorem keeps_unchanged (changes : ChangesUnderId act part key f) (id other : String) :
    Keeps (fun r => ∀ a, (part r).find? (key · == other) = some a → f a = a) (act id) := by
  constructor
  · intro r _ r' before h a found
    rw [find?_of_modifyKey? changes.same (changes.ok h)] at found
    obtain ⟨b, hb, rfl⟩ := Option.map_eq_some_iff.1 found
    split_ifs
    · exact changes.again b
    · exact before b hb
  · intro r e r' before h
    rw [(changes.error h).2]
    exact before

theorem isSome_of_ok (changes : ChangesUnderId act part key f) {id : String}
    (h : act id r = .ok () r') : ((part r).find? (key · == id)).isSome = true := by
  rw [Option.isSome_iff_ne_none, ne_eq, ← modifyKey?_eq_none_iff, changes.ok h]
  exact Option.some_ne_none _

theorem isSome_of_forM_eq_ok (changes : ChangesUnderId act part key f)
    (h : ids.forM act r = .ok () r') :
    ∀ id ∈ ids, ((part r).find? (key · == id)).isSome = true := by
  induction ids generalizing r with
  | nil => exact fun id mem => absurd mem List.not_mem_nil
  | cons id rest ih =>
    rw [forM_cons_eq] at h
    cases first : act id r with
    | ok _ r₁ =>
      rw [first] at h
      refine List.forall_mem_cons.2 ⟨changes.isSome_of_ok first, fun other mem => ?_⟩
      rw [← ih h other mem]
      exact ((changes.keeps_isSome id other _).ok rfl first).symm
    | error e r₁ =>
      rw [first] at h
      cases h

/-- When changes under several ids fail, those before the first unknown id have been made. -/
theorem forM_known_of_error (changes : ChangesUnderId act part key f)
    (h : ids.forM act r = .error e r') :
    (ids.takeWhile fun id => ((part r).find? (key · == id)).isSome).forM act r = .ok () r' := by
  obtain ⟨before, id, after, rfl, done, failed⟩ :=
    exists_of_forM_eq_error (fun _ _ _ _ h => (changes.error h).2) h
  have unknown : ((part r).find? (key · == id)).isSome = false := by
    have kept := (Keeps.forM (l := before) fun b _ => changes.keeps_isSome b id _).ok rfl done
    rw [← kept, modifyKey?_eq_none_iff.1 (changes.error failed).1]
    rfl
  rw [List.takeWhile_append_of_pos (changes.isSome_of_forM_eq_ok done),
    List.takeWhile_cons_of_neg (by simp [unknown]), List.append_nil]
  exact done

theorem unchanged_iff_of_error (changes : ChangesUnderId act part key f)
    (h : ids.forM act r = .error e r') :
    r' = r ↔ ∀ id ∈ ids.takeWhile fun id => ((part r).find? (key · == id)).isSome,
      ∀ a, (part r).find? (key · == id) = some a → f a = a := by
  refine unchanged_iff_of_forM
    (fun id r => ∀ a, (part r).find? (key · == id) = some a → f a = a) ?_ changes.keeps_unchanged ?_
    (changes.forM_known_of_error h)
  · intro id r r' h a found
    rw [find?_of_modifyKey? changes.same (changes.ok h)] at found
    obtain ⟨b, -, rfl⟩ := Option.map_eq_some_iff.1 found
    rw [if_pos rfl, changes.again]
  · intro id r r' h unchanged
    exact changes.idle h (eq_of_modifyKey? (changes.ok h) unchanged)

end ChangesUnderId

theorem changesUnderId_updateSource {f : Source → Source} (same : ∀ s, (f s).id = s.id)
    (again : ∀ s, f (f s) = f s) :
    ChangesUnderId (fun id => Records.updateSource id f) Records.sources Source.id f where
  same := same
  again := again
  ok h := by
    obtain ⟨sources, changed, rfl⟩ := updateSource_eq_ok_iff.1 h
    exact changed
  idle h unchanged := by
    obtain ⟨sources, -, rfl⟩ := updateSource_eq_ok_iff.1 h
    exact Records.ext unchanged rfl rfl rfl rfl
  error {id r e r'} h := by
    unfold Records.updateSource at h
    cases found : modifyKey? Source.id id f r.sources with
    | some sources =>
      rw [found] at h
      cases h
    | none =>
      rw [found] at h
      cases h
      exact ⟨rfl, rfl⟩

theorem changesUnderId_updateTrigger {f : Trigger → Trigger} (same : ∀ t, (f t).id = t.id)
    (again : ∀ t, f (f t) = f t) :
    ChangesUnderId (fun id => Records.updateTrigger id f) Records.triggers Trigger.id f where
  same := same
  again := again
  ok h := by
    obtain ⟨triggers, changed, rfl⟩ := updateTrigger_eq_ok_iff.1 h
    exact changed
  idle h unchanged := by
    obtain ⟨triggers, -, rfl⟩ := updateTrigger_eq_ok_iff.1 h
    exact Records.ext rfl unchanged rfl rfl rfl
  error {id r e r'} h := by
    unfold Records.updateTrigger at h
    cases found : modifyKey? Trigger.id id f r.triggers with
    | some triggers =>
      rw [found] at h
      cases h
    | none =>
      rw [found] at h
      cases h
      exact ⟨rfl, rfl⟩

/-! ## One write -/

namespace Records

theorem atomic_updateSource (id : String) (f : Source → Source) : Atomic (updateSource id f) := by
  intro r e r' h
  unfold updateSource at h
  split at h <;> cases h
  rfl

theorem atomic_insertEventReport (report : EventReport) : Atomic (insertEventReport report) := by
  intro r e r' h
  unfold insertEventReport at h
  split_ifs at h
  cases h
  rfl

theorem atomic_deleteEventReport (id : String) : Atomic (deleteEventReport id) := by
  intro r e r' h
  unfold deleteEventReport at h
  split at h <;> cases h
  rfl

theorem atomic_insertAggregateReport (report : AggregateReport) :
    Atomic (insertAggregateReport report) := by
  intro r e r' h
  unfold insertAggregateReport at h
  split_ifs at h
  cases h
  rfl

theorem atomic_setEventReportStatus (id : String) (status : EventReportStatus) :
    Atomic (setEventReportStatus id status) := by
  intro r e r' h
  unfold setEventReportStatus at h
  split at h <;> cases h
  rfl

end Records

/-- The records before the first unknown id, if the call sets the status of several, have that
status already. -/
def StoreCall.StatusesStand (c : StoreCall) (r : Records) : Prop :=
  match c with
  | .write (.setSourceStatus ids status) =>
    ∀ id ∈ ids.takeWhile fun id => (r.source? id).isSome,
      ∀ source, r.source? id = some source → source.status = status
  | .write (.setTriggerStatus ids status) =>
    ∀ id ∈ ids.takeWhile fun id => (r.trigger? id).isSome,
      ∀ trigger, r.trigger? id = some trigger → trigger.status = status
  | _ => True

namespace Store

theorem atomic_transact (step : Transaction) : Atomic (transact step) := by
  intro s e s' h
  cases step <;> unfold transact at h <;> dsimp only at h <;> split at h <;> cases h <;> rfl

theorem eq_iff_of_snapshot {s s' : Store} (same : s'.snapshot = s.snapshot) :
    s' = s ↔ s'.records = s.records := by
  obtain ⟨records, snapshot⟩ := s
  obtain ⟨records', snapshot'⟩ := s'
  cases same
  simp

theorem atomic_change {act : EStateM StoreError Records Unit} (atomic : Atomic act) :
    Atomic (change act) := by
  intro s e s' h
  obtain ⟨failed, same⟩ := change_eq_error_iff.1 h
  exact (eq_iff_of_snapshot same).2 (atomic failed)

/-- A failed call leaves the store as it was exactly when it does not set statuses, or all those
that it set before it met an unknown id stood already. A question leaves the store as it was in any
case.
-/
theorem unchanged_iff_of_failed (s : Store) :
    (∀ (c : StoreCall) (e : StoreError) (s' : Store), perform c s = .error e s' →
      (s' = s ↔ c.StatusesStand s.records)) ∧
    ∀ (α : Type) (query : Query α) (e : StoreError) (s' : Store),
      backend.ask query s = .error e s' → s' = s := by
  refine ⟨fun c e s' h => ?_, fun α query e s' h => (ask_eq_error_iff.1 h).2⟩
  cases c with
  | addSource source => cases h
  | addTrigger trigger => cases h
  | setReportStatus id status =>
    exact iff_of_true (atomic_change (Records.atomic_setEventReportStatus id status) h) trivial
  | transact step => exact iff_of_true (atomic_transact step h) trivial
  | write w =>
    cases w with
    | insertEventReport report =>
      exact iff_of_true (atomic_change (Records.atomic_insertEventReport report) h) trivial
    | deleteEventReport id =>
      exact iff_of_true (atomic_change (Records.atomic_deleteEventReport id) h) trivial
    | insertAggregateReport report =>
      exact iff_of_true (atomic_change (Records.atomic_insertAggregateReport report) h) trivial
    | setEventDedupKeys | setAggregateDedupKeys | setContributions | setReportSpec =>
      exact iff_of_true (atomic_change (Records.atomic_updateSource _ _) h) trivial
    | insertAttribution attribution => cases h
    | setSourceStatus ids status =>
      obtain ⟨failed, same⟩ := change_eq_error_iff.1 h
      have changes := changesUnderId_updateSource (f := fun s => { s with status })
        (fun _ => rfl) (fun _ => rfl)
      rw [eq_iff_of_snapshot same, changes.unchanged_iff_of_error failed]
      have stands (source : Source) : { source with status } = source ↔ source.status = status :=
        ⟨fun eq => (congrArg Source.status eq).symm, fun eq => by rw [← eq]⟩
      simp only [stands]
      rfl
    | setTriggerStatus ids status =>
      obtain ⟨failed, same⟩ := change_eq_error_iff.1 h
      have changes := changesUnderId_updateTrigger (f := fun t => { t with status })
        (fun _ => rfl) (fun _ => rfl)
      rw [eq_iff_of_snapshot same, changes.unchanged_iff_of_error failed]
      have stands (trigger : Trigger) :
          { trigger with status } = trigger ↔ trigger.status = status :=
        ⟨fun eq => (congrArg Trigger.status eq).symm, fun eq => by rw [← eq]⟩
      simp only [stands]
      rfl

/-- A store with the sample source and nothing else. -/
def sampleOneSource : Store := { records := { sources := [Sample.source] } }

/-- A change of status for the sample source and for one that is not there. -/
def sampleSetStatus (status : SourceStatus) : StoreCall :=
  .write (.setSourceStatus ["source1", "missing"] status)

theorem sampleSetStatus_failed (status : SourceStatus) :
    perform (sampleSetStatus status) sampleOneSource = .error (.unknownSource "missing")
      { records := { sources := [{ Sample.source with status }] } } := rfl

/-- The call fails in either case. The source is active, so activating it changes nothing, while
ignoring it does. -/
theorem unchanged_iff_of_failed_sample :
    (∃ e s', perform (sampleSetStatus .active) sampleOneSource = .error e s' ∧
      s' = sampleOneSource) ∧
    ∃ e s', perform (sampleSetStatus .ignored) sampleOneSource = .error e s' ∧
      s' ≠ sampleOneSource := by
  obtain ⟨exact_when, -⟩ := unchanged_iff_of_failed sampleOneSource
  have found : sampleOneSource.records.source? "source1" = some Sample.source := rfl
  have known : (["source1", "missing"].takeWhile fun id =>
      (sampleOneSource.records.source? id).isSome) = ["source1"] := rfl
  refine ⟨⟨_, _, sampleSetStatus_failed .active, ?_⟩, ⟨_, _, sampleSetStatus_failed .ignored, ?_⟩⟩
  · refine (exact_when _ _ _ (sampleSetStatus_failed .active)).2 fun id mem source h => ?_
    rw [known, List.mem_singleton] at mem
    rw [mem, found] at h
    cases h
    rfl
  · intro unchanged
    have stands := (exact_when _ _ _ (sampleSetStatus_failed .ignored)).1 unchanged "source1"
      (by rw [known]; exact List.mem_singleton_self _) Sample.source found
    cases stands

/-- A failed call may change the store: the source before the unknown one is ignored. -/
theorem failed_call_changes_store :
    ¬ ∀ (c : StoreCall) (s s' : Store) (e : StoreError), perform c s = .error e s' → s' = s := by
  intro unchanged
  have same := unchanged _ _ _ _ (sampleSetStatus_failed .ignored)
  have statuses := congrArg (fun s : Store => s.records.sources.map Source.status) same
  cases statuses

end Store

end AttributionReporting
