import AttributionReporting.Proofs.Flexible.Run

/-!
# Flexible sources in 64 bits

The definitions for flexible sources add up times exactly. Here they stand again with each sum
wrapped: the offset of a trigger from its source, and the sums that lead to the time at which a
report is due. `TriggerFits` says that 64 bits hold these sums for a trigger. While they do for
every trigger of the history, it makes no difference to the next trigger (`credit64_eq`), and so
none to a run either (`run64_eq`): what is proved of runs is proved of runs in 64 bits.
-/

namespace AttributionReporting

/-! ## With wrapped sums -/

namespace TriggerSpec

/-- The end of the window in which a trigger falls. -/
def windowEnd64? (spec : TriggerSpec) (eventTime : Int) (t : AttributedTrigger) : Option Int :=
  spec.windows.endFor? (Time.wrap (t.time - eventTime))

/-- The total that `triggers` reach for one trigger data. -/
def total64 (spec : TriggerSpec) (eventTime : Int) (data : UInt64)
    (triggers : List AttributedTrigger) : Nat :=
  cappedTotal ((triggers.filter fun t =>
    t.data == data && (spec.windowEnd64? eventTime t).isSome).map spec.operator.contribution)

end TriggerSpec

namespace ReportSpec

/-- The total of a trigger data over the whole history. -/
def summaryValue64 (spec : ReportSpec) (eventTime : Int) (data : UInt64) : Nat :=
  match spec.config.triggerSpecFor? data with
  | some rules => rules.total64 eventTime data spec.history
  | none => 0

/-- The reports that credit `t` when it is ranked directly after `above`. -/
def reportsFor64 (spec : ReportSpec) (source : Source) (ctx : ReportContext)
    (above : List AttributedTrigger) (t : AttributedTrigger) : List EventReport :=
  match spec.config.triggerSpecFor? t.data with
  | none => []
  | some rules =>
    match rules.windowEnd64? source.eventTime t with
    | none => []
    | some windowEnd =>
      let before := rules.total64 source.eventTime t.data above
      let after := rules.total64 source.eventTime t.data (above ++ [t])
      let reportTime := rules.windows.reportTime64 source.eventTime ctx.delay ctx.now windowEnd
      let reached := (rules.summaryBuckets spec.config.maxReports).filter fun bucket =>
        decide (before < bucket.first.toNat ∧ bucket.first.toNat ≤ after)
      reached.map fun bucket =>
        (EventReport.ofAttributed source t reportTime ctx.triggerRate
          (spec.debugKeyFor ctx t)).withBucket bucket

/-- The reports for ranked triggers that follow `above`. -/
def desiredFrom64 (spec : ReportSpec) (source : Source) (ctx : ReportContext) :
    List AttributedTrigger → List AttributedTrigger → List EventReport
  | _, [] => []
  | above, t :: rest =>
    spec.reportsFor64 source ctx above t ++ desiredFrom64 spec source ctx (above ++ [t]) rest

/-- Every report that the history deserves. -/
def desired64 (spec : ReportSpec) (source : Source) (ctx : ReportContext) : List EventReport :=
  spec.desiredFrom64 source ctx [] (rankTriggers spec.history)

/-- Why a trigger cannot join the history; otherwise the rules for its trigger data. -/
def rulesFor64 (spec : ReportSpec) (eventTime : Int) (t : AttributedTrigger) :
    Except FlexibleRejection TriggerSpec :=
  match spec.config.triggerSpecFor? t.data with
  | none => .error .unknownTriggerData
  | some rules =>
    if t.dedupKey.any spec.hasDedupKey then .error .duplicateDedupKey
    else if (rules.windowEnd64? eventTime t).isNone then .error .outsideReportingWindows
    else .ok rules

/-- Takes a trigger into the history. -/
def credit64 (spec : ReportSpec) (source : Source) (t : AttributedTrigger)
    (existing : List EventReport) (ctx : ReportContext) : FlexibleOutcome :=
  match spec.rulesFor64 source.eventTime t with
  | .error reason => .rejected reason
  | .ok rules =>
    let next := spec.record t
    let thresholds := rules.thresholds spec.config.maxReports
    let crossed (spec : ReportSpec) :=
      crossedCount thresholds (spec.summaryValue64 source.eventTime t.data)
    if crossed spec = crossed next then .historyOnly next
    else
      let (insert, delete) :=
        reconcile spec.maxReports (next.desired64 source ctx) existing ctx.now
      .reports next insert delete

end ReportSpec

namespace FlexibleState

/-- The state after an event. -/
def step64 (source : Source) (s : FlexibleState) : FlexibleEvent → FlexibleState
  | .credit t ctx => s.apply (s.spec.credit64 source t (s.own source) ctx)
  | .deliver id => s.settle id .delivered
  | .retract id => s.settle id .markedToDelete

/-- The state after some events. -/
def run64 (source : Source) (s : FlexibleState) (events : List FlexibleEvent) : FlexibleState :=
  events.foldl (step64 source) s

end FlexibleState

/-! ## Sums that fit -/

/-- Whether 64 bits hold every sum of times for a trigger of a history. -/
def TriggerFits (config : FlexibleConfig) (source : Source) (ctx : ReportContext)
    (t : AttributedTrigger) : Prop :=
  Time.Fits (t.time - source.eventTime) ∧
    ∀ rules ∈ config.triggerSpecFor? t.data, ∀ windowEnd ∈ rules.windowEnd? source.eventTime t,
      rules.windows.ReportTimeFits source.eventTime ctx.delay ctx.now windowEnd

instance (config : FlexibleConfig) (source : Source) (ctx : ReportContext)
    (t : AttributedTrigger) : Decidable (TriggerFits config source ctx t) :=
  inferInstanceAs (Decidable (_ ∧ ∀ rules ∈ _, ∀ windowEnd ∈ _, _))

section

variable {config : FlexibleConfig} {source : Source} {ctx : ReportContext} {eventTime : Int}
  {rules : TriggerSpec} {data : UInt64} {t : AttributedTrigger}
  {triggers : List AttributedTrigger}

theorem TriggerSpec.windowEnd64?_eq (fits : Time.Fits (t.time - eventTime)) :
    rules.windowEnd64? eventTime t = rules.windowEnd? eventTime t := by
  rw [windowEnd64?, windowEnd?, Time.wrap_of_fits fits]

theorem TriggerSpec.total64_eq (fits : ∀ t ∈ triggers, Time.Fits (t.time - eventTime)) :
    rules.total64 eventTime data triggers = rules.total eventTime data triggers := by
  have same : triggers.filter (fun t =>
        t.data == data && (rules.windowEnd64? eventTime t).isSome) =
      triggers.filter fun t => t.data == data && (rules.windowEnd? eventTime t).isSome :=
    List.filter_congr fun t ht => by rw [windowEnd64?_eq (fits t ht)]
  rw [total64, same, total]

namespace ReportSpec

variable {spec : ReportSpec} {above rest : List AttributedTrigger} {existing : List EventReport}

theorem summaryValue64_eq (fits : ∀ t ∈ spec.history, Time.Fits (t.time - eventTime)) :
    spec.summaryValue64 eventTime data = spec.summaryValue eventTime data := by
  unfold summaryValue64 summaryValue
  cases spec.config.triggerSpecFor? data with
  | none => rfl
  | some rules => exact TriggerSpec.total64_eq fits

theorem reportsFor64_eq (fits : ∀ u ∈ above ++ [t], TriggerFits spec.config source ctx u) :
    spec.reportsFor64 source ctx above t = spec.reportsFor source ctx above t := by
  have offsets : ∀ u ∈ above ++ [t], Time.Fits (u.time - source.eventTime) :=
    fun u hu => (fits u hu).1
  obtain ⟨offset, dues⟩ := fits t (List.mem_append_right _ (List.mem_singleton_self t))
  unfold reportsFor64 reportsFor
  cases hr : spec.config.triggerSpecFor? t.data with
  | none => rfl
  | some rules =>
    dsimp only
    rw [TriggerSpec.windowEnd64?_eq offset]
    cases hw : rules.windowEnd? source.eventTime t with
    | none => rfl
    | some windowEnd =>
      dsimp only
      rw [TriggerSpec.total64_eq offsets,
        TriggerSpec.total64_eq fun u hu => offsets u (List.mem_append_left _ hu),
        ReportWindows.reportTime64_eq (dues rules hr windowEnd hw)]

theorem desiredFrom64_eq (fits : ∀ u ∈ above ++ rest, TriggerFits spec.config source ctx u) :
    spec.desiredFrom64 source ctx above rest = spec.desiredFrom source ctx above rest := by
  induction rest generalizing above with
  | nil => rfl
  | cons t rest ih =>
    have split : above ++ t :: rest = above ++ [t] ++ rest := by simp
    rw [split] at fits
    rw [desiredFrom64, desiredFrom, ih fits,
      reportsFor64_eq fun u hu => fits u (List.mem_append_left rest hu)]

theorem desired64_eq (fits : ∀ t ∈ spec.history, TriggerFits spec.config source ctx t) :
    spec.desired64 source ctx = spec.desired source ctx :=
  desiredFrom64_eq fun t ht => fits t ((rankTriggers_perm spec.history).mem_iff.1 ht)

theorem rulesFor64_eq (fits : Time.Fits (t.time - eventTime)) :
    spec.rulesFor64 eventTime t = spec.rulesFor eventTime t := by
  unfold rulesFor64 rulesFor
  cases spec.config.triggerSpecFor? t.data with
  | none => rfl
  | some rules =>
    dsimp only
    rw [TriggerSpec.windowEnd64?_eq fits]

/-- It makes no difference to a trigger that sums are wrapped when 64 bits hold those for it and for
the triggers before it. -/
theorem credit64_eq (fits : ∀ u ∈ (spec.record t).history, TriggerFits spec.config source ctx u) :
    spec.credit64 source t existing ctx = spec.credit source t existing ctx := by
  have offsets : ∀ u ∈ (spec.record t).history, Time.Fits (u.time - source.eventTime) :=
    fun u hu => (fits u hu).1
  have before : spec.summaryValue64 source.eventTime t.data =
      spec.summaryValue source.eventTime t.data :=
    summaryValue64_eq fun u hu => offsets u (List.mem_append_left [t] hu)
  have after : (spec.record t).summaryValue64 source.eventTime t.data =
      (spec.record t).summaryValue source.eventTime t.data := summaryValue64_eq offsets
  have desired : (spec.record t).desired64 source ctx = (spec.record t).desired source ctx :=
    desired64_eq fits
  unfold credit64 credit
  rw [rulesFor64_eq (offsets t (List.mem_append_right _ (List.mem_singleton_self t)))]
  cases spec.rulesFor source.eventTime t with
  | error reason => rfl
  | ok rules =>
    simp only [before, after, desired]

end ReportSpec

end

/-! ## Runs -/

namespace FlexibleEvent

/-- The trigger that is credited. -/
def trigger? : FlexibleEvent → Option AttributedTrigger
  | credit t _ => some t
  | deliver _ => none
  | retract _ => none

/-- What the reports depend on when a trigger is credited. -/
def context? : FlexibleEvent → Option ReportContext
  | credit _ ctx => some ctx
  | deliver _ => none
  | retract _ => none

end FlexibleEvent

namespace FlexibleState

/-- Whether 64 bits hold every sum of times when events happen to a source: each time a trigger is
credited, those for the triggers of the history and for all that are credited. -/
def TimesFit (source : Source) (spec : ReportSpec) (events : List FlexibleEvent) : Prop :=
  ∀ ctx ∈ events.filterMap FlexibleEvent.context?,
    ∀ t ∈ spec.history ++ events.filterMap FlexibleEvent.trigger?,
      TriggerFits spec.config source ctx t

instance (source : Source) (spec : ReportSpec) (events : List FlexibleEvent) :
    Decidable (TimesFit source spec events) :=
  inferInstanceAs (Decidable (∀ ctx ∈ _, ∀ t ∈ _, _))

variable {source : Source} {s : FlexibleState} {t : AttributedTrigger} {ctx : ReportContext}
  {events : List FlexibleEvent}

theorem history_record_append (spec : ReportSpec) (t : AttributedTrigger) (ctx : ReportContext)
    (events : List FlexibleEvent) :
    (spec.record t).history ++ events.filterMap FlexibleEvent.trigger? =
      spec.history ++ (.credit t ctx :: events).filterMap FlexibleEvent.trigger? :=
  List.append_assoc spec.history [t] _

theorem TimesFit.record {spec : ReportSpec}
    (fits : TimesFit source spec (.credit t ctx :: events)) :
    ∀ u ∈ (spec.record t).history, TriggerFits spec.config source ctx u := by
  intro u hu
  refine fits ctx List.mem_cons_self u ?_
  rw [← history_record_append]
  exact List.mem_append_left _ hu

theorem TimesFit.step_credit (fits : TimesFit source s.spec (.credit t ctx :: events)) :
    TimesFit source (s.step source (.credit t ctx)).spec events := by
  intro ctx' hctx u hu
  have all := fits ctx' (List.mem_cons_of_mem ctx hctx) u
  rcases s.spec_step_credit source t ctx with same | recorded
  · rw [same] at hu ⊢
    refine all (List.mem_append.2 ?_)
    exact (List.mem_append.1 hu).imp_right (List.mem_cons_of_mem t)
  · rw [recorded] at hu ⊢
    exact all (history_record_append s.spec t ctx events ▸ hu)

theorem run64_cons (event : FlexibleEvent) :
    run64 source s (event :: events) = run64 source (s.step64 source event) events := rfl

theorem run_cons (event : FlexibleEvent) :
    run source s (event :: events) = run source (s.step source event) events := rfl

/-- It makes no difference to a run that sums are wrapped when 64 bits hold them all. -/
theorem run64_eq (fits : TimesFit source s.spec events) :
    run64 source s events = run source s events := by
  induction events generalizing s with
  | nil => rw [run64, run, List.foldl_nil, List.foldl_nil]
  | cons event rest ih =>
    rw [run64_cons, run_cons]
    cases event with
    | deliver id => exact ih fits
    | retract id => exact ih fits
    | credit t ctx =>
      have first : s.step64 source (.credit t ctx) = s.step source (.credit t ctx) := by
        rw [step64, step, ReportSpec.credit64_eq fits.record]
      rw [first]
      exact ih fits.step_credit

/-- The sums for what comes after a run. -/
theorem TimesFit.run {rest : List FlexibleEvent} (fits : TimesFit source s.spec (events ++ rest)) :
    TimesFit source (run source s events).spec rest := by
  induction events generalizing s with
  | nil => exact fits
  | cons event events ih =>
    rw [run_cons]
    cases event with
    | deliver id => exact ih fits
    | retract id => exact ih fits
    | credit t ctx => exact ih fits.step_credit

/-- The history of a run consists of triggers that were there before and some that were credited. -/
theorem history_run_sublist (source : Source) (s : FlexibleState) (events : List FlexibleEvent) :
    (run source s events).spec.history.Sublist
      (s.spec.history ++ events.filterMap FlexibleEvent.trigger?) := by
  induction events generalizing s with
  | nil => exact List.sublist_append_left _ _
  | cons event rest ih =>
    refine (ih (s.step source event)).trans ?_
    cases event with
    | deliver id => exact List.Sublist.refl _
    | retract id => exact List.Sublist.refl _
    | credit t ctx =>
      rw [← history_record_append]
      refine List.Sublist.append_right ?_ _
      rcases s.spec_step_credit source t ctx with same | recorded
      · rw [same]
        exact List.sublist_append_left _ _
      · rw [recorded]

/-- The sums for a trigger that a source without a history has in the end. -/
theorem TimesFit.offset {spec : ReportSpec} (fits : TimesFit source spec events)
    (new : spec.history = []) (ht : t ∈ (FlexibleState.run source ⟨spec, []⟩ events).spec.history) :
    Time.Fits (t.time - source.eventTime) := by
  have credited := (history_run_sublist source ⟨spec, []⟩ events).subset ht
  have known : t ∈ events.filterMap FlexibleEvent.trigger? := by
    simpa only [new, List.nil_append] using credited
  obtain ⟨event, he, eq⟩ := List.mem_filterMap.1 known
  cases event with
  | deliver id => cases eq
  | retract id => cases eq
  | credit u ctx => exact (fits ctx (List.mem_filterMap.2 ⟨_, he, rfl⟩) t credited).1

end FlexibleState

end AttributionReporting
