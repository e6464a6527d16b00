import AttributionReporting.Proofs.Store.Exchange
import AttributionReporting.Proofs.Store.Keeps

/-!
# What writes do to each kind of record

Every write concerns one kind of record and leaves the others alone. `onSources`, `onTriggers`,
`onEventReports`, `onAggregateReports` and `onAttributions` say what it does to the records of each
kind, and writes in turn succeed exactly when they do for each kind alone
(`performAll_eq_ok_iff`).
-/

namespace AttributionReporting

attribute [ext] Records

namespace Write

/-! ## One kind of record -/

def onSources : Write → List Source → Option (List Source)
  | .setEventDedupKeys id keys => modifyKey? Source.id id fun s => { s with eventDedupKeys := keys }
  | .setAggregateDedupKeys id keys =>
    modifyKey? Source.id id fun s => { s with aggregateDedupKeys := keys }
  | .setContributions id contributions => modifyKey? Source.id id fun s => { s with contributions }
  | .setReportSpec id spec => modifyKey? Source.id id fun s => { s with reportSpec := spec }
  | .setSourceStatus ids status => fun sources =>
    ids.foldlM (fun l id => modifyKey? Source.id id (fun s => { s with status }) l) sources
  | _ => some

def onTriggers : Write → List Trigger → Option (List Trigger)
  | .setTriggerStatus ids status => fun triggers =>
    ids.foldlM (fun l id => modifyKey? Trigger.id id (fun t => { t with status }) l) triggers
  | _ => some

def onEventReports : Write → List EventReport → Option (List EventReport)
  | .insertEventReport report => insertReports? [report]
  | .deleteEventReport id => removeKey? EventReport.id id
  | _ => some

def onAggregateReports : Write → List AggregateReport → Option (List AggregateReport)
  | .insertAggregateReport report => fun reports =>
    if reports.any (·.id == report.id) then none else some (reports ++ [report])
  | _ => some

def onAttributions : Write → List Attribution → Option (List Attribution)
  | .insertAttribution attribution => fun attributions => some (attributions ++ [attribution])
  | _ => some

end Write

/-! ## One write -/

section

variable {r r' : Records}

theorem updateSource_eq_ok_iff {id : String} {f : Source → Source} :
    Records.updateSource id f r = .ok () r' ↔
      ∃ sources, modifyKey? Source.id id f r.sources = some sources ∧ r' = { r with sources } := by
  unfold Records.updateSource
  cases modifyKey? Source.id id f r.sources with
  | none => simp
  | some sources => simp [eq_comm]

theorem updateTrigger_eq_ok_iff {id : String} {f : Trigger → Trigger} :
    Records.updateTrigger id f r = .ok () r' ↔
      ∃ triggers, modifyKey? Trigger.id id f r.triggers = some triggers ∧
        r' = { r with triggers } := by
  unfold Records.updateTrigger
  cases modifyKey? Trigger.id id f r.triggers with
  | none => simp
  | some triggers => simp [eq_comm]

theorem forM_cons_eq_ok_iff {α : Type} {act : α → EStateM StoreError Records Unit} {a : α}
    {rest : List α} :
    (a :: rest).forM act r = .ok () r' ↔
      ∃ r₁, act a r = .ok () r₁ ∧ rest.forM act r₁ = .ok () r' := by
  rw [forM_cons_eq]
  cases act a r with
  | ok _ r₁ => simp
  | error e r₁ => simp

/-- Acts on one part of the records, in turn. -/
theorem forM_eq_ok_iff {α β : Type} (act : α → EStateM StoreError Records Unit) (part : Records → β)
    (put : β → Records → Records) {f : α → β → Option β}
    (one : ∀ a r r', act a r = .ok () r' ↔ ∃ x, f a (part r) = some x ∧ r' = put x r)
    (put_part : ∀ r, put (part r) r = r) (part_put : ∀ x r, part (put x r) = x)
    (put_put : ∀ x y r, put x (put y r) = put x r) (l : List α) :
    l.forM act r = .ok () r' ↔
      ∃ x, l.foldlM (fun x a => f a x) (part r) = some x ∧ r' = put x r := by
  induction l generalizing r with
  | nil =>
    show EStateM.Result.ok () r = _ ↔ _
    simp [put_part, eq_comm]
  | cons a rest ih =>
    rw [forM_cons_eq_ok_iff, List.foldlM_cons]
    simp only [one, ih, Option.bind_eq_bind, Option.bind_eq_some_iff]
    constructor
    · rintro ⟨_, ⟨first, h, rfl⟩, last, h', rfl⟩
      rw [part_put] at h'
      exact ⟨last, ⟨first, h, h'⟩, put_put last first r⟩
    · rintro ⟨last, ⟨first, h, h'⟩, rfl⟩
      refine ⟨_, ⟨first, h, rfl⟩, last, ?_, (put_put last first r).symm⟩
      rwa [part_put]

/-- A write succeeds when it does for each kind of record. -/
theorem perform_eq_ok_iff {w : Write} :
    w.perform r = .ok () r' ↔
      w.onSources r.sources = some r'.sources ∧ w.onTriggers r.triggers = some r'.triggers ∧
        w.onEventReports r.eventReports = some r'.eventReports ∧
          w.onAggregateReports r.aggregateReports = some r'.aggregateReports ∧
            w.onAttributions r.attributions = some r'.attributions := by
  rcases r' with ⟨sources, triggers, eventReports, aggregateReports, attributions⟩
  unfold Write.onSources Write.onTriggers Write.onEventReports Write.onAggregateReports
    Write.onAttributions
  cases w with
  | insertEventReport report =>
    rw [Write.perform, Records.insertEventReport]
    by_cases taken : r.eventReports.any (·.id == report.id) = true
    · simp [insertReports?, taken]
    · simp [insertReports?, taken, eq_comm]
  | deleteEventReport id =>
    rw [Write.perform, Records.deleteEventReport]
    rcases h : removeKey? EventReport.id id r.eventReports with _ | left
    · simp [h]
    · simp [h, eq_comm]
  | insertAggregateReport report =>
    rw [Write.perform, Records.insertAggregateReport]
    by_cases taken : r.aggregateReports.any (·.id == report.id) = true
    · simp [taken]
    · simp [taken, eq_comm]
  | setEventDedupKeys | setAggregateDedupKeys | setContributions | setReportSpec =>
    rw [Write.perform, updateSource_eq_ok_iff]
    simp [eq_comm]
  | setSourceStatus ids status =>
    rw [Write.perform, forM_eq_ok_iff (fun id => Records.updateSource id _) Records.sources
      (fun sources r => { r with sources }) (fun _ _ _ => updateSource_eq_ok_iff) (fun _ => rfl)
      (fun _ _ => rfl) (fun _ _ _ => rfl)]
    simp [eq_comm]
  | setTriggerStatus ids status =>
    rw [Write.perform, forM_eq_ok_iff (fun id => Records.updateTrigger id _) Records.triggers
      (fun triggers r => { r with triggers }) (fun _ _ _ => updateTrigger_eq_ok_iff) (fun _ => rfl)
      (fun _ _ => rfl) (fun _ _ _ => rfl)]
    simp [eq_comm, and_left_comm]
  | insertAttribution attribution =>
    rw [Write.perform]
    simp [eq_comm]

/-- Performs writes in turn, up to the first that fails. -/
def performAll (writes : List Write) : EStateM StoreError Records Unit := writes.forM Write.perform

/-- Writes in turn succeed when they do for each kind of record. -/
theorem performAll_eq_ok_iff {writes : List Write} :
    performAll writes r = .ok () r' ↔
      writes.foldlM (fun l w => w.onSources l) r.sources = some r'.sources ∧
        writes.foldlM (fun l w => w.onTriggers l) r.triggers = some r'.triggers ∧
          writes.foldlM (fun l w => w.onEventReports l) r.eventReports = some r'.eventReports ∧
            writes.foldlM (fun l w => w.onAggregateReports l) r.aggregateReports =
              some r'.aggregateReports ∧
              writes.foldlM (fun l w => w.onAttributions l) r.attributions =
                some r'.attributions := by
  induction writes generalizing r with
  | nil =>
    show EStateM.Result.ok () r = _ ↔ _
    simp only [List.foldlM_nil, Option.pure_def, Option.some.injEq, EStateM.Result.ok.injEq,
      true_and]
    constructor
    · rintro rfl
      exact ⟨rfl, rfl, rfl, rfl, rfl⟩
    · rintro ⟨sources, triggers, events, aggregates, attributions⟩
      cases r
      cases r'
      simp only at sources triggers events aggregates attributions
      rw [sources, triggers, events, aggregates, attributions]
  | cons w rest ih =>
    have step : performAll (w :: rest) r = .ok () r' ↔
        ∃ r₁, w.perform r = .ok () r₁ ∧ performAll rest r₁ = .ok () r' := forM_cons_eq_ok_iff
    simp only [step, ih, List.foldlM_cons, perform_eq_ok_iff, Option.bind_eq_bind,
      Option.bind_eq_some_iff]
    constructor
    · rintro ⟨r₁, ⟨s, t, e, a, at'⟩, s', t', e', a', at''⟩
      exact ⟨⟨_, s, s'⟩, ⟨_, t, t'⟩, ⟨_, e, e'⟩, ⟨_, a, a'⟩, ⟨_, at', at''⟩⟩
    · rintro ⟨⟨_, s, s'⟩, ⟨_, t, t'⟩, ⟨_, e, e'⟩, ⟨_, a, a'⟩, ⟨_, at', at''⟩⟩
      exact ⟨⟨_, _, _, _, _⟩, ⟨s, t, e, a, at'⟩, s', t', e', a', at''⟩

/-- Changes that leave something alone change nothing together. -/
theorem foldlM_of_forall_some {α β : Type} {f : β → α → Option α} {l : List β}
    (alone : ∀ b ∈ l, f b = some) (x : α) : l.foldlM (fun x b => f b x) x = some x := by
  induction l with
  | nil => rfl
  | cons b rest ih =>
    obtain ⟨first, others⟩ := List.forall_mem_cons.1 alone
    rw [List.foldlM_cons, first]
    exact ih others

/-- What every change keeps, all of them keep together. -/
theorem foldlM_invariant {α β : Type} {f : β → α → Option α} {l : List β} (inv : α → Prop)
    (keeps : ∀ b ∈ l, ∀ x x', inv x → f b x = some x' → inv x') {x x' : α} (start : inv x)
    (h : l.foldlM (fun x b => f b x) x = some x') : inv x' := by
  induction l generalizing x with
  | nil =>
    cases h
    exact start
  | cons b rest ih =>
    obtain ⟨first, others⟩ := List.forall_mem_cons.1 keeps
    rw [List.foldlM_cons] at h
    obtain ⟨next, step, h⟩ := Option.bind_eq_some_iff.1 h
    exact ih others (first x next start step) h

end

end AttributionReporting
