import AttributionReporting.Store.Query
import AttributionReporting.Store.Write

/-!
# Stores

A `Backend` is a store as attribution sees it: it opens and closes transactions, answers queries and
performs writes, and each of these calls may fail. `Store` keeps records in memory with a copy of
them while a transaction is open, to which `rollback` returns; `Store.backend` is its backend. Two
backends are made from others: `untransacted`, whose transactions do nothing, and `gated`, which
asks a gate before every call and fails without any other effect when the gate stays shut.
-/

namespace AttributionReporting

/-! ## Calls -/

/-- The steps of a transaction. -/
inductive Transaction
  | begin
  | commit
  | rollback
deriving DecidableEq

/-- The kinds of calls of a store. -/
inductive CallKind
  | transaction (step : Transaction)
  | pendingTriggers
  | trigger
  | matchingSources
  | attributionCount
  | enrollmentCount
  | sourceReports
  | eventReportCount
  | aggregateReportCount
  | insertEventReport
  | deleteEventReport
  | insertAggregateReport
  | setEventDedupKeys
  | setAggregateDedupKeys
  | setContributions
  | setReportSpec
  | setSourceStatus
  | setTriggerStatus
  | insertAttribution
deriving DecidableEq

/-- The kind of a query. -/
def Query.kind {α : Type} : Query α → CallKind
  | .pendingTriggers => .pendingTriggers
  | .trigger _ => .trigger
  | .matchingSources _ => .matchingSources
  | .attributionCount .. => .attributionCount
  | .enrollmentCount .. => .enrollmentCount
  | .sourceReports _ => .sourceReports
  | .eventReportCount _ => .eventReportCount
  | .aggregateReportCount _ => .aggregateReportCount

/-- The kind of a write. -/
def Write.kind : Write → CallKind
  | .insertEventReport _ => .insertEventReport
  | .deleteEventReport _ => .deleteEventReport
  | .insertAggregateReport _ => .insertAggregateReport
  | .setEventDedupKeys .. => .setEventDedupKeys
  | .setAggregateDedupKeys .. => .setAggregateDedupKeys
  | .setContributions .. => .setContributions
  | .setReportSpec .. => .setReportSpec
  | .setSourceStatus .. => .setSourceStatus
  | .setTriggerStatus .. => .setTriggerStatus
  | .insertAttribution _ => .insertAttribution

/-- A store with states of type `σ`. -/
structure Backend (σ : Type) where
  transact : Transaction → EStateM StoreError σ Unit
  ask {α : Type} : Query α → EStateM StoreError σ α
  write : Write → EStateM StoreError σ Unit

/-! ## The store in memory -/

/-- Records in memory, and what they were when the open transaction began. -/
structure Store where
  records : Records := {}
  snapshot : Option Records := none

namespace Store

/-- Opens or closes a transaction. -/
def transact : Transaction → EStateM StoreError Store Unit
  | .begin => fun s =>
    match s.snapshot with
    | none => .ok () { s with snapshot := some s.records }
    | some _ => .error .transactionInProgress s
  | .commit => fun s =>
    match s.snapshot with
    | some _ => .ok () { s with snapshot := none }
    | none => .error .noTransaction s
  | .rollback => fun s =>
    match s.snapshot with
    | some records => .ok () { records, snapshot := none }
    | none => .error .noTransaction s

/-- Applies a change of the records. -/
def change {α : Type} (act : EStateM StoreError Records α) : EStateM StoreError Store α := fun s =>
  match act s.records with
  | .ok a records => .ok a { s with records }
  | .error e records => .error e { s with records }

/-- The store in memory as a backend. -/
def backend : Backend Store where
  transact := transact
  ask query := fun s =>
    match query.answer s.records with
    | .ok a => .ok a s
    | .error e => .error e s
  write w := change w.perform

end Store

/-! ## Backends from backends -/

namespace Backend

variable {σ γ : Type}

/-- The same store without transactions: opening and closing one succeeds and does nothing. -/
def untransacted (b : Backend σ) : Backend σ := { b with transact := fun _ => pure () }

/-- Whether a call may go on, and the gate after it was asked. -/
abbrev Gate (γ : Type) := CallKind → γ → Bool × γ

/-- A call that fails when the gate stays shut. -/
def guarded {α : Type} (gate : Gate γ) (kind : CallKind) (act : EStateM StoreError σ α) :
    EStateM StoreError (γ × σ) α := fun (g, s) =>
  match gate kind g with
  | (false, g) => .error .unavailable (g, s)
  | (true, g) =>
    match act s with
    | .ok a s => .ok a (g, s)
    | .error e s => .error e (g, s)

/-- The same store behind a gate. -/
def gated (gate : Gate γ) (b : Backend σ) : Backend (γ × σ) where
  transact step := guarded gate (.transaction step) (b.transact step)
  ask query := guarded gate query.kind (b.ask query)
  write w := guarded gate w.kind (b.write w)

end Backend

end AttributionReporting
