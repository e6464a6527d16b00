import AttributionReporting.Aggregate.Decision
import AttributionReporting.EventReport.Standard
import AttributionReporting.Flexible.Credit
import AttributionReporting.Noise
import AttributionReporting.Selection
import AttributionReporting.Store.Backend

/-!
# The attribution job

The job attributes pending triggers to sources, one store transaction for each (`Job.process`,
`Job.processPending`). A trigger is ignored when no source matches it, its filters do not admit the
winning source, a limit on attributions or enrollments is reached, or the source does not report
truthfully. Otherwise it may lead to an event report and to an aggregate report, one independently
of the other; if it leads to either, the other sources lose it for good and the attribution is
recorded. When a call of the store fails the transaction is rolled back, and the trigger stays
pending.
-/

namespace AttributionReporting

/-- What a job runs with. -/
structure JobConfig where
  limits : Limits
  rates : NoiseRates

/-- What a job changes: the store, and the numbers left in its generator. -/
structure JobState (σ : Type) where
  store : σ
  draws : Draws

/-- What happened to one trigger. -/
inductive TriggerOutcome
  | attributed
  | ignored
  /-- The trigger was not pending any more. -/
  | skipped
deriving DecidableEq

/-- How many triggers of a run ended in each way; those that failed are still pending. -/
structure JobSummary where
  attributed : Nat := 0
  ignored : Nat := 0
  skipped : Nat := 0
  failed : Nat := 0
deriving DecidableEq

/-- The summary with one more trigger. -/
def JobSummary.count (s : JobSummary) : Except StoreError TriggerOutcome → JobSummary
  | .ok .attributed => { s with attributed := s.attributed + 1 }
  | .ok .ignored => { s with ignored := s.ignored + 1 }
  | .ok .skipped => { s with skipped := s.skipped + 1 }
  | .error _ => { s with failed := s.failed + 1 }

namespace Job

/-- A step of a job over a store with states of type `σ`. -/
abbrev Step (σ : Type) := EStateM StoreError (JobState σ)

variable {σ α : Type}

/-! ## Steps -/

/-- Makes a call of the store. -/
def call (act : EStateM StoreError σ α) : Step σ α := fun s =>
  match act s.store with
  | .ok a store => .ok a { s with store }
  | .error e store => .error e { s with store }

/-- Asks the store. -/
def ask (b : Backend σ) (query : Query α) : Step σ α := call (b.ask query)

/-- Performs writes in turn, up to the first that fails. -/
def write (b : Backend σ) (writes : List Write) : Step σ Unit :=
  writes.forM fun w => call (b.write w)

/-- Takes what it needs from the generator. -/
def draw (f : Draws → α × Draws) : Step σ α := fun s =>
  let (a, draws) := f s.draws
  .ok a { s with draws }

/-! ## Plans -/

/-- What the reports of a flexible source depend on when a trigger is attributed. -/
def reportContext (cfg : JobConfig) (source : Source) (spec : ReportSpec) (trigger : Trigger) :
    ReportContext where
  now := trigger.time
  delay := cfg.limits.eventReportDelay
  triggerRate := spec.config.flipProbability.getD (cfg.rates.rateOf source)
  triggerDebugKey := trigger.debugKey

/-- The writes of the event path for a flexible source, if the trigger is not rejected. -/
def planFlexible (cfg : JobConfig) (source : Source) (trigger : Trigger) (datum : EventTriggerDatum)
    (spec : ReportSpec) (existing : List EventReport) : Option (List Write) :=
  match spec.credit source (trigger.attributedWith datum) existing
      (reportContext cfg source spec trigger) with
  | .rejected _ => none
  | .historyOnly next => some [.setReportSpec source.id (some next)]
  | .reports next insert delete =>
    some (delete.map (fun r => .deleteEventReport r.id) ++ insert.map .insertEventReport ++
      [.setReportSpec source.id (some next)])

/-- The writes of the event path for a plain source, if there is a report. -/
def planStandard (cfg : JobConfig) (source : Source) (trigger : Trigger) (datum : EventTriggerDatum)
    (existing : List EventReport) : Option (List Write) :=
  match decideStandardReport source trigger datum existing cfg.limits (cfg.rates.rateOf source) with
  | .drop _ => none
  | .insert report replaces =>
    some ((replaces.map fun r => Write.deleteEventReport r.id).toList ++
      (datum.dedupKey.map fun key =>
        Write.setEventDedupKeys source.id (source.eventDedupKeys ++ [key])).toList ++
      [.insertEventReport report])

/-- The writes of the event path, given the current reports of the source. -/
def planEvent (cfg : JobConfig) (source : Source) (trigger : Trigger) (datum : EventTriggerDatum)
    (existing : List EventReport) : Option (List Write) :=
  match source.reportSpec with
  | some spec => planFlexible cfg source trigger datum spec existing
  | none => planStandard cfg source trigger datum existing

/-- The contributions of a source after a report; they stop at the largest 32-bit number. -/
def addContributions (used : UInt32) (total : Nat) : UInt32 :=
  UInt32.ofNat (min (used.toNat + total) 0xffffffff)

/-- The writes that an aggregate report leads to. -/
def planAggregate (source : Source) (report : AggregateReport) (dedupKey : Option UInt64) :
    List Write :=
  .setContributions source.id
      (addContributions source.contributions (totalValue report.contributions)) ::
    (dedupKey.map fun key =>
      Write.setAggregateDedupKeys source.id (source.aggregateDedupKeys ++ [key])).toList ++
    [.insertAggregateReport report]

/-- The writes that end an attribution: the losing sources are out, and the attribution is
recorded. -/
def planAttribution (source : Source) (losers : List Source) (trigger : Trigger) : List Write :=
  (if losers.isEmpty then [] else [.setSourceStatus (losers.map (·.id)) .ignored]) ++
    [.insertAttribution (Attribution.of source trigger),
      .setTriggerStatus [trigger.id] .attributed]

/-! ## One trigger -/

/-- Gives up a trigger. -/
def ignore (b : Backend σ) (trigger : Trigger) : Step σ TriggerOutcome := do
  write b [.setTriggerStatus [trigger.id] .ignored]
  return .ignored

/-- The event path. Says whether the trigger counts as attributed by it. -/
def eventPath (b : Backend σ) (cfg : JobConfig) (source : Source) (trigger : Trigger) :
    Step σ Bool :=
  match selectDatum source trigger with
  | none => return false
  | some datum => do
    let count ← ask b (.eventReportCount trigger.destination)
    if LimitStatus.check count cfg.limits.maxEventReportsPerDestination.toNat = .exceeded then
      return false
    let existing ← ask b (.sourceReports source.id)
    match planEvent cfg source trigger datum existing with
    | none => return false
    | some writes =>
      write b writes
      return true

/-- The aggregate path. Says whether there is an aggregate report. -/
def aggregatePath (b : Backend σ) (cfg : JobConfig) (source : Source) (trigger : Trigger) :
    Step σ Bool := do
  match ← draw (decideAggregateReport source trigger cfg.limits) with
  | .drop _ => return false
  | .insert report dedupKey =>
    let count ← ask b (.aggregateReportCount trigger.destination)
    if LimitStatus.check count cfg.limits.maxAggregateReportsPerDestination.toNat = .exceeded then
      return false
    write b (planAggregate source report dedupKey)
    return true

/-- Whether a limit keeps a trigger from being attributed to a source. -/
def limitReached (b : Backend σ) (cfg : JobConfig) (source : Source) (trigger : Trigger) :
    Step σ Bool := do
  let windowStart := cfg.limits.windowStart trigger.time
  let attributions ← ask b (.attributionCount source trigger windowStart)
  if LimitStatus.check attributions cfg.limits.maxAttributions.toNat = .exceeded then
    return true
  let enrollments ← ask b (.enrollmentCount source.publisher trigger.destination
    trigger.enrollmentId windowStart trigger.time)
  return LimitStatus.check enrollments cfg.limits.maxEnrollments.toNat = .exceeded

/-- Credits a trigger to the source that won it, if it leads to a report. -/
def credit (b : Backend σ) (cfg : JobConfig) (source : Source) (losers : List Source)
    (trigger : Trigger) : Step σ TriggerOutcome := do
  let event ← eventPath b cfg source trigger
  let aggregate ← aggregatePath b cfg source trigger
  if event || aggregate then
    write b (planAttribution source losers trigger)
    return .attributed
  else ignore b trigger

/-- Attributes a pending trigger. -/
def attributePending (b : Backend σ) (cfg : JobConfig) (trigger : Trigger) :
    Step σ TriggerOutcome := do
  let sources ← ask b (.matchingSources trigger)
  match selectSource sources trigger with
  | none => ignore b trigger
  | some (source, losers) =>
    if clausesPass source.matchingData trigger.filters trigger.notFilters then
      let blocked ← limitReached b cfg source trigger
      if blocked ∨ source.mode ≠ .truthfully then ignore b trigger
      else credit b cfg source losers trigger
    else ignore b trigger

/-- Attributes a trigger that is still pending. -/
def attributeTrigger (b : Backend σ) (cfg : JobConfig) (id : String) : Step σ TriggerOutcome := do
  let trigger ← ask b (.trigger id)
  if trigger.status ≠ .pending then return .skipped
  else attributePending b cfg trigger

/-! ## Transactions -/

/-- Runs a step in a transaction. When the step fails what it did is rolled back, and when the
transaction cannot be opened or committed that is the failure. -/
def transactionally (b : Backend σ) (step : Step σ α) : Step σ α := fun s =>
  match call (b.transact .begin) s with
  | .error e s => .error e s
  | .ok _ s =>
    match step s with
    | .ok a s =>
      match call (b.transact .commit) s with
      | .ok _ s => .ok a s
      | .error e s => .error e s
    | .error e s =>
      match call (b.transact .rollback) s with
      | .ok _ s => .error e s
      | .error _ s => .error e s

/-- Attributes one trigger. -/
def process (b : Backend σ) (cfg : JobConfig) (id : String) : Step σ TriggerOutcome :=
  transactionally b (attributeTrigger b cfg id)

/-- The result of a step, failed or not. -/
def attempt (step : Step σ α) : Step σ (Except StoreError α) := fun s =>
  match step s with
  | .ok a s => .ok (.ok a) s
  | .error e s => .ok (.error e) s

/-- Attributes every pending trigger, in order of registration. One that fails does not stop the
run. -/
def processPending (b : Backend σ) (cfg : JobConfig) : Step σ JobSummary := do
  let pending ← ask b .pendingTriggers
  pending.foldlM (fun summary trigger => do
    return summary.count (← attempt (process b cfg trigger.id))) {}

end Job

end AttributionReporting
