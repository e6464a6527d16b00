import AttributionReporting.Proofs.Flexible.Reached
import AttributionReporting.Proofs.Flexible.Soundness
import AttributionReporting.Proofs.Flexible.Times64
import AttributionReporting.Proofs.ReportId

/-!
# Flexible reports are complete

While a source reaches no more buckets than it may report (`reachedCount`), none of them is lost: in
every run in which triggers are credited at their own time, each bucket that the history reaches has
exactly one standing report (`reports_complete`). The invariant is `Complete`: the standing reports
are due at ends of windows of their own rules, so that a bucket whose report can still be taken back
always finds an open window, whichever trigger it is credited to now.
-/

open scoped List

namespace AttributionReporting

namespace FlexibleEvent

/-- A trigger is credited at its own time, and reports are only delivered. -/
def IsPrompt (delay : Int) : FlexibleEvent → Prop
  | credit t ctx => ctx.now = t.time ∧ ctx.delay = delay
  | deliver _ => True
  | retract _ => False

def triggerId? : FlexibleEvent → Option String
  | credit t _ => some t.triggerId
  | deliver _ => none
  | retract _ => none

end FlexibleEvent

namespace FlexibleState

variable {source : Source} {delay : Int} {s : FlexibleState} {t : AttributedTrigger}
  {ctx : ReportContext} {next : ReportSpec} {insert delete : List EventReport}

/-! ## Stored reports -/

/-- What a stored report tells: it stands, its id names the trigger that it credits, and it is due
some time after a window of its rules ends. -/
structure IsTimely (source : Source) (delay : Int) (spec : ReportSpec) (r : EventReport) :
    Prop where
  mine : r.sourceId = source.id
  stands : r.isStanding = true
  id_eq : ∃ t ∈ spec.history, ∃ first,
    r.id = flexibleId source.id t.triggerId first ∧ r.key = (t.data, some first)
  time_eq : ∃ rules, spec.config.triggerSpecFor? r.credited.data = some rules ∧
    ∃ e ∈ rules.windows.ends, r.reportTime = source.eventTime + e + delay

theorem IsTimely.record {spec : ReportSpec} {r : EventReport}
    (h : IsTimely source delay spec r) (t : AttributedTrigger) :
    IsTimely source delay (spec.record t) r := by
  obtain ⟨u, hu, first, eqs⟩ := h.id_eq
  exact ⟨h.mine, h.stands, ⟨u, List.mem_append_left [t] hu, first, eqs⟩, h.time_eq⟩

theorem IsTimely.deliver {spec : ReportSpec} {r : EventReport} (h : IsTimely source delay spec r)
    (id : String) : IsTimely source delay spec (r.settle id .delivered) := by
  unfold EventReport.settle
  split_ifs with settled
  · exact ⟨h.mine, rfl, h.id_eq, h.time_eq⟩
  · exact h

theorem isTimely_of_mem_desired {spec : ReportSpec} (hd : ctx.delay = delay) {r : EventReport}
    (h : r ∈ spec.desired source ctx) : IsTimely source delay spec r := by
  rw [ReportSpec.desired_eq_map] at h
  obtain ⟨c, hc, rfl⟩ := List.mem_map.1 h
  obtain ⟨mem, hr, hw⟩ := ReportSpec.of_mem_credits hc
  obtain ⟨e, he, due⟩ := ReportWindows.reportTime_mem source.eventTime ctx.delay ctx.now
    (ReportWindows.mem_of_endFor? hw).1
  rw [hd] at due
  refine ⟨rfl, rfl, ⟨c.trigger, mem, c.bucket.first, rfl, rfl⟩, c.rules, hr, e, he, ?_⟩
  rw [← due, ← hd]
  rfl

theorem standing_eq_stored (timely : ∀ r ∈ s.stored, IsTimely source delay s.spec r) :
    s.standing source = s.stored := by
  unfold standing own
  rw [List.filter_filter]
  apply List.filter_eq_self.2
  intro r hr
  rw [(timely r hr).stands, (timely r hr).mine, beq_self_eq_true]
  rfl

/-- The state of a source whose triggers have ids of their own: what is stored are standing reports
of the source, and each of them tells its trigger and its bucket by its id. -/
structure Identified (source : Source) (delay : Int) (s : FlexibleState) : Prop
    extends Sound source s where
  triggers : (s.spec.history.map (·.triggerId)).Nodup
  timely : ∀ r ∈ s.stored, IsTimely source delay s.spec r

/-- The state of a source whose triggers came at their own time: while its buckets are no more than
it may report, each bucket that the history reaches has a standing report. -/
structure Complete (source : Source) (delay : Int) (s : FlexibleState) : Prop
    extends Sound source s where
  triggers : (s.spec.history.map (·.triggerId)).Nodup
  timely : ∀ r ∈ s.stored, IsTimely source delay s.spec r
  full : s.spec.reachedCount source.eventTime ≤ s.spec.maxReports →
    ∀ data threshold, s.spec.Reaches source.eventTime data threshold →
      (data, some threshold) ∈ (s.standing source).map EventReport.key

/-- Reports with different buckets have different ids when no two triggers share theirs. -/
theorem nodup_ids_of_timely {spec : ReportSpec} {stored : List EventReport}
    (triggers : (spec.history.map (·.triggerId)).Nodup)
    (timely : ∀ r ∈ stored, IsTimely source delay spec r)
    (keys : (stored.map EventReport.key).Nodup) : (stored.map EventReport.id).Nodup := by
  refine List.Nodup.map_on (fun a ha b hb same => ?_) keys.of_map
  obtain ⟨t, ht, m, id_a, key_a⟩ := (timely a ha).id_eq
  obtain ⟨u, hu, n, id_b, key_b⟩ := (timely b hb).id_eq
  rw [id_a, id_b] at same
  obtain ⟨sameId, rfl⟩ := flexibleId_inj same
  obtain rfl : t = u := List.inj_on_of_nodup_map triggers ht hu sameId
  exact List.inj_on_of_nodup_map keys ha hb (key_a.trans key_b.symm)

theorem Complete.identified (complete : Complete source delay s) : Identified source delay s :=
  ⟨complete.toSound, complete.triggers, complete.timely⟩

/-! ## Distinct ids -/

theorem Identified.deliver (identified : Identified source delay s) (id : String) :
    Identified source delay (s.settle id .delivered) := by
  refine ⟨identified.toSound.settle id _, identified.triggers, fun r hr => ?_⟩
  obtain ⟨r', hr', rfl⟩ := List.mem_map.1 hr
  exact (identified.timely r' hr').deliver id

theorem Identified.triggers_record (identified : Identified source delay s)
    (fresh : t.triggerId ∉ s.spec.history.map (·.triggerId)) :
    ((s.spec.record t).history.map (·.triggerId)).Nodup := by
  have split : (s.spec.record t).history.map (·.triggerId) =
      s.spec.history.map (·.triggerId) ++ [t.triggerId] := by
    rw [ReportSpec.record, List.map_append, List.map_singleton]
  rw [split, List.nodup_append]
  refine ⟨identified.triggers, List.pairwise_singleton _ _, fun a ha b hb same => fresh ?_⟩
  rw [List.mem_singleton] at hb
  rwa [same, hb] at ha

theorem Identified.historyOnly (identified : Identified source delay s)
    (fresh : t.triggerId ∉ s.spec.history.map (·.triggerId))
    (h : s.spec.credit source t (s.own source) ctx = .historyOnly next) :
    Identified source delay { s with spec := next } := by
  obtain ⟨rfl, -⟩ := ReportSpec.credit_eq_historyOnly_iff.1 h
  exact ⟨identified.toSound.record t, identified.triggers_record fresh,
    fun r hr => (identified.timely r hr).record t⟩

theorem Identified.timely_exchange (identified : Identified source delay s)
    (sameDelay : ctx.delay = delay)
    (h : s.spec.credit source t (s.own source) ctx = .reports next insert delete) :
    ∀ r ∈ remainingReports delete s.stored ++ insert, IsTimely source delay next r := by
  obtain ⟨rfl, -, eq⟩ := ReportSpec.credit_eq_reports h
  intro r hr
  rcases List.mem_append.1 hr with old | new
  · exact (identified.timely r (List.mem_of_mem_filter old)).record t
  · exact isTimely_of_mem_desired sameDelay (mem_of_mem_openReports (mem_of_mem_insert eq new)).1

/-- The store accepts what a trigger with a new id does. -/
theorem Identified.nodup_ids_exchange (identified : Identified source delay s)
    (fresh : t.triggerId ∉ s.spec.history.map (·.triggerId)) (sameDelay : ctx.delay = delay)
    (h : s.spec.credit source t (s.own source) ctx = .reports next insert delete) :
    ((remainingReports delete s.stored ++ insert).map EventReport.id).Nodup := by
  have timely := identified.timely_exchange sameDelay h
  have keys := nodup_keys_exchange identified.ids identified.keys h
  rw [standing_eq_stored timely] at keys
  obtain ⟨rfl, -⟩ := ReportSpec.credit_eq_reports h
  exact nodup_ids_of_timely (identified.triggers_record fresh) timely keys

theorem Identified.exchange (identified : Identified source delay s)
    (fresh : t.triggerId ∉ s.spec.history.map (·.triggerId)) (sameDelay : ctx.delay = delay)
    (h : s.spec.credit source t (s.own source) ctx = .reports next insert delete) :
    Identified source delay ⟨next, remainingReports delete s.stored ++ insert⟩ := by
  have ids := identified.nodup_ids_exchange fresh sameDelay h
  have timely := identified.timely_exchange sameDelay h
  have sound := identified.toSound.exchange h ids
  obtain ⟨rfl, -⟩ := ReportSpec.credit_eq_reports h
  exact ⟨sound, identified.triggers_record fresh, timely⟩

theorem Identified.apply_reports (identified : Identified source delay s)
    (fresh : t.triggerId ∉ s.spec.history.map (·.triggerId)) (sameDelay : ctx.delay = delay)
    (h : s.spec.credit source t (s.own source) ctx = .reports next insert delete) :
    s.apply (.reports next insert delete) = ⟨next, remainingReports delete s.stored ++ insert⟩ := by
  have accepted : exchangeReports? insert delete s.stored =
      some (remainingReports delete s.stored ++ insert) :=
    (exchange_eq_some_iff identified.ids h).2
      ⟨rfl, identified.nodup_ids_exchange fresh sameDelay h⟩
  rw [apply, accepted]

/-! ## One event -/

theorem Complete.deliver (complete : Complete source delay s) (id : String) :
    Complete source delay (s.settle id .delivered) := by
  have identified := complete.identified.deliver id
  refine ⟨identified.toSound, identified.triggers, identified.timely, ?_⟩
  intro room data threshold hreach
  have stored := complete.full room data threshold hreach
  rw [standing_eq_stored complete.timely] at stored
  obtain ⟨r, hr, key⟩ := List.mem_map.1 stored
  rw [standing_eq_stored identified.timely]
  refine List.mem_map.2 ⟨r.settle id .delivered, List.mem_map_of_mem hr, ?_⟩
  rw [← key]
  exact congrArg Prod.fst EventReport.settle_slot

theorem Complete.historyOnly (complete : Complete source delay s)
    (fresh : t.triggerId ∉ s.spec.history.map (·.triggerId))
    (h : s.spec.credit source t (s.own source) ctx = .historyOnly next) :
    Complete source delay { s with spec := next } := by
  have identified := complete.identified.historyOnly fresh h
  refine ⟨identified.toSound, identified.triggers, identified.timely, ?_⟩
  obtain ⟨rfl, -⟩ := ReportSpec.credit_eq_historyOnly_iff.1 h
  intro room data threshold reached
  have before : s.spec.reachedCount source.eventTime ≤ s.spec.maxReports :=
    (s.spec.reachedCount_le_record source.eventTime t).trans room
  exact complete.full before data threshold (ReportSpec.reaches_of_historyOnly h reached)

/-- A bucket that the history reaches and that no locked report covers is not due in the past: if it
was reached before, its report stands and the window of that report is open; otherwise the new
trigger lets it be reached, and the window of the new trigger is open. -/
theorem Complete.le_due (complete : Complete source delay s)
    (room : s.spec.reachedCount source.eventTime ≤ s.spec.maxReports) (hd : 0 ≤ delay)
    (onTime : ctx.now = t.time) (sameDelay : ctx.delay = delay)
    (ok : ∃ rules, s.spec.rulesFor source.eventTime t = .ok rules) {c : Credit}
    (hc : c ∈ (s.spec.record t).credits source.eventTime)
    (uncovered : ∀ l ∈ lockedReports (s.own source) ctx.now, l.key ≠ c.key) :
    ctx.now ≤ c.due source.eventTime ctx.delay ctx.now := by
  obtain ⟨-, hr, -⟩ := ReportSpec.of_mem_credits hc
  have isOpen : ∃ e ∈ c.rules.windows.ends, ctx.now ≤ source.eventTime + e + ctx.delay := by
    by_cases known : s.spec.Reaches source.eventTime c.trigger.data c.bucket.first
    · obtain ⟨r, mem, key⟩ := List.mem_map.1 (complete.full room _ _ known)
      obtain ⟨own, standing⟩ := List.mem_filter.1 mem
      have free : r.isLocked ctx.now = false := by
        rw [← Bool.not_eq_true]
        exact fun locked => uncovered r (mem_lockedReports.2 ⟨own, standing, locked⟩) key
      have due : ctx.now ≤ r.reportTime := by
        simp only [EventReport.isLocked, Bool.or_eq_false_iff, decide_eq_false_iff_not,
          not_lt] at free
        exact free.2
      rw [standing_eq_stored complete.timely] at mem
      obtain ⟨rules, found, e, he, eq⟩ := (complete.timely r mem).time_eq
      have sameData : r.credited.data = c.trigger.data := congrArg Prod.fst key
      rw [sameData] at found
      obtain rfl : rules = c.rules := Option.some.inj (found.symm.trans hr)
      exact ⟨e, he, by rw [sameDelay, ← eq]; exact due⟩
    · obtain ⟨data, threshold, key, reached⟩ :=
        ReportSpec.mem_map_key_credits_iff.1 (List.mem_map_of_mem (f := Credit.key) hc)
      simp only [Credit.key, Prod.mk.injEq, Option.some.injEq] at key
      obtain ⟨rfl, rfl⟩ := key
      have sameData : t.data = c.trigger.data := by
        by_contra ne
        obtain ⟨rules, found, mem, le⟩ := reached
        rw [ReportSpec.summaryValue_record_of_ne ne] at le
        exact known ⟨rules, found, mem, le⟩
      obtain ⟨rules, ok⟩ := ok
      obtain ⟨found, windowEnd, hw⟩ := ReportSpec.rulesFor_eq_ok ok
      rw [sameData] at found
      obtain rfl : rules = c.rules := Option.some.inj (found.symm.trans hr)
      obtain ⟨mem, later⟩ := ReportWindows.mem_of_endFor? hw
      exact ⟨windowEnd, mem, by omega⟩
  obtain ⟨e, he, le⟩ := isOpen
  exact ReportWindows.le_reportTime_of_mem he le

/-- While the buckets are no more than may be reported, none of the uncovered reports is cut off. -/
theorem Complete.length_uncovered_le (complete : Complete source delay s)
    (room : (s.spec.record t).reachedCount source.eventTime ≤ s.spec.maxReports)
    (ctx : ReportContext) :
    (uncoveredReports ((s.spec.record t).desired source ctx) (lockedReports (s.own source) ctx.now)
      ctx.now).length ≤ s.spec.maxReports - (lockedReports (s.own source) ctx.now).length := by
  have nodup := nodup_locked_append_uncovered complete.keys (s.spec.record t) ctx
  have sub : List.Subperm _ ((s.spec.record t).reachedKeys source.eventTime) :=
    List.subperm_of_subset nodup fun key hk => ReportSpec.mem_reachedKeys_iff.2
      (complete.reached_of_mem ctx (fun _ _ reached => reached.record t) hk)
  have count := sub.length_le
  rw [ReportSpec.length_reachedKeys, List.length_append, List.length_map, List.length_map] at count
  omega

theorem Complete.exchange (complete : Complete source delay s) (hd : 0 ≤ delay)
    (fresh : t.triggerId ∉ s.spec.history.map (·.triggerId))
    (onTime : ctx.now = t.time) (sameDelay : ctx.delay = delay)
    (h : s.spec.credit source t (s.own source) ctx = .reports next insert delete) :
    Complete source delay ⟨next, remainingReports delete s.stored ++ insert⟩ := by
  have identified := complete.identified.exchange fresh sameDelay h
  have perm := standing_keys_exchange complete.ids h
  obtain ⟨rfl, ok, -⟩ := ReportSpec.credit_eq_reports h
  refine ⟨identified.toSound, identified.triggers, identified.timely,
    fun room data threshold reached => ?_⟩
  rw [perm.mem_iff, openReports_eq_take,
    List.take_of_length_le (complete.length_uncovered_le room ctx),
    List.mem_append]
  by_cases covered : (data, some threshold) ∈
      (lockedReports (s.own source) ctx.now).map EventReport.key
  · exact .inl covered
  · right
    obtain ⟨c, hc, key⟩ := List.mem_map.1
      (ReportSpec.mem_map_key_credits_iff.2 ⟨data, threshold, rfl, reached⟩)
    have before : s.spec.reachedCount source.eventTime ≤ s.spec.maxReports :=
      (s.spec.reachedCount_le_record source.eventTime t).trans room
    have uncovered : ∀ l ∈ lockedReports (s.own source) ctx.now, l.key ≠ c.key :=
      fun l hl same => covered (List.mem_map.2 ⟨l, hl, same.trans key⟩)
    have due := complete.le_due before hd onTime sameDelay ok hc uncovered
    refine List.mem_map.2 ⟨c.report (s.spec.record t) source ctx, ?_, key⟩
    rw [mem_uncoveredReports, ReportSpec.desired_eq_map]
    exact ⟨List.mem_map_of_mem hc, uncovered, due⟩

/-! ## Runs -/

theorem Complete.step (complete : Complete source delay s) (hd : 0 ≤ delay) {event : FlexibleEvent}
    (prompt : event.IsPrompt delay)
    (fresh : ∀ id ∈ event.triggerId?, id ∉ s.spec.history.map (·.triggerId)) :
    Complete source delay (s.step source event) := by
  cases event with
  | deliver id => exact complete.deliver id
  | retract id => exact prompt.elim
  | credit t ctx =>
    have new : t.triggerId ∉ s.spec.history.map (·.triggerId) := fresh _ rfl
    obtain ⟨onTime, sameDelay⟩ := prompt
    rw [FlexibleState.step]
    rcases h : s.spec.credit source t (s.own source) ctx with _ | next | ⟨next, insert, delete⟩
    · exact complete
    · exact complete.historyOnly new h
    · rw [complete.identified.apply_reports new sameDelay h]
      exact complete.exchange hd new onTime sameDelay h

/-- The history consists of triggers that were credited. -/
theorem history_step_subset (source : Source) (s : FlexibleState) (event : FlexibleEvent) :
    ∀ id ∈ (s.step source event).spec.history.map (·.triggerId),
      id ∈ s.spec.history.map (·.triggerId) ∨ id ∈ event.triggerId? := by
  cases event with
  | deliver id => exact fun _ => .inl
  | retract id => exact fun _ => .inl
  | credit t ctx =>
    intro id hid
    rcases s.spec_step_credit source t ctx with same | recorded
    · exact .inl (same ▸ hid)
    · rw [recorded, ReportSpec.record, List.map_append, List.mem_append, List.map_singleton,
        List.mem_singleton] at hid
      exact hid.imp_right fun own => congrArg some own.symm

/-- What every event keeps that credits no trigger of the history holds after any events that credit
distinct triggers. -/
theorem run_of_distinct {inv : FlexibleState → Prop} {Allowed : FlexibleEvent → Prop}
    (keeps : ∀ s event, inv s → Allowed event →
      (∀ id ∈ event.triggerId?, id ∉ s.spec.history.map (·.triggerId)) → inv (s.step source event))
    (start : inv s) {events : List FlexibleEvent} (allowed : ∀ event ∈ events, Allowed event)
    (distinct : (events.filterMap FlexibleEvent.triggerId?).Nodup)
    (fresh : ∀ id ∈ events.filterMap FlexibleEvent.triggerId?,
      id ∉ s.spec.history.map (·.triggerId)) :
    inv (run source s events) ∧
      ∀ id ∈ (run source s events).spec.history.map (·.triggerId),
        id ∈ s.spec.history.map (·.triggerId) ∨
          id ∈ events.filterMap FlexibleEvent.triggerId? := by
  induction events generalizing s with
  | nil => exact ⟨start, fun _ => .inl⟩
  | cons event rest ih =>
    obtain ⟨first, allowed⟩ := List.forall_mem_cons.1 allowed
    have split : (event :: rest).filterMap FlexibleEvent.triggerId? =
        event.triggerId?.toList ++ rest.filterMap FlexibleEvent.triggerId? := by
      cases event <;> rfl
    rw [split] at distinct fresh ⊢
    obtain ⟨-, distinct, apart⟩ := List.nodup_append.1 distinct
    have next := keeps s event start first fun id hid =>
      fresh id (List.mem_append_left _ (Option.mem_toList.2 hid))
    have history := history_step_subset source s event
    obtain ⟨done, members⟩ := ih next allowed distinct fun id hid old => by
      rcases history id old with before | now
      · exact fresh id (List.mem_append_right _ hid) before
      · exact apart id (Option.mem_toList.2 now) id hid rfl
    refine ⟨done, fun id hid => ?_⟩
    rcases members id hid with old | later
    · exact (history id old).imp_right fun now =>
        List.mem_append_left _ (Option.mem_toList.2 now)
    · exact .inr (List.mem_append_right _ later)

theorem Complete.run (complete : Complete source delay s) (hd : 0 ≤ delay)
    {events : List FlexibleEvent} (prompt : ∀ event ∈ events, event.IsPrompt delay)
    (distinct : (events.filterMap FlexibleEvent.triggerId?).Nodup)
    (fresh : ∀ id ∈ events.filterMap FlexibleEvent.triggerId?,
      id ∉ s.spec.history.map (·.triggerId)) :
    Complete source delay (run source s events) ∧
      ∀ id ∈ (run source s events).spec.history.map (·.triggerId),
        id ∈ s.spec.history.map (·.triggerId) ∨
          id ∈ events.filterMap FlexibleEvent.triggerId? :=
  run_of_distinct (fun _ _ complete prompt new => complete.step hd prompt new) complete prompt
    distinct fresh

/-- Take a source without reports and any run in which triggers with ids of their own are credited
at their own time and reports are delivered, in 64 bits that hold every sum of times. It is the run
with exact sums. The store refuses nothing that the next trigger does, and while the buckets that
the history reaches are no more than may be reported, each of them has exactly one standing report,
and there are no others. -/
theorem reports_complete (source : Source) (spec : ReportSpec) (new : spec.history = [])
    (delay : Int) (hd : 0 ≤ delay) (events : List FlexibleEvent)
    (prompt : ∀ event ∈ events, event.IsPrompt delay)
    (distinct : (events.filterMap FlexibleEvent.triggerId?).Nodup)
    (fits : TimesFit source spec events) :
    let s := run64 source ⟨spec, []⟩ events
    s = run source ⟨spec, []⟩ events ∧
      (∀ data, s.spec.summaryValue64 source.eventTime data =
        s.spec.summaryValue source.eventTime data) ∧
      (s.spec.reachedCount source.eventTime ≤ s.spec.maxReports →
        ((s.standing source).map EventReport.key).Nodup ∧
          ∀ key, key ∈ (s.standing source).map EventReport.key ↔
            ∃ data threshold, key = (data, some threshold) ∧
              s.spec.Reaches source.eventTime data threshold) ∧
      ∀ t ctx next insert delete, t.triggerId ∉ events.filterMap FlexibleEvent.triggerId? →
        ctx.delay = delay → TimesFit source spec (events ++ [.credit t ctx]) →
          s.spec.credit64 source t (s.own source) ctx = .reports next insert delete →
          (exchangeReports? insert delete s.stored).isSome = true := by
  intro s
  have exact_run : s = run source ⟨spec, []⟩ events := run64_eq fits
  rw [exact_run]
  have start : Complete source delay ⟨spec, []⟩ := by
    refine ⟨sound_of_forall_ne spec List.nodup_nil (by simp), ?_, by simp, ?_⟩
    · rw [new]
      exact List.nodup_nil
    · intro _ data threshold h
      exact absurd h (ReportSpec.not_reaches_of_history_nil new)
  have none_yet : ∀ id, id ∉ spec.history.map (·.triggerId) := by simp [new]
  obtain ⟨complete, members⟩ := start.run hd prompt distinct fun id _ => none_yet id
  refine ⟨rfl, fun data => ?_, fun room => ⟨complete.keys, fun key => ⟨complete.reached key, ?_⟩⟩,
    ?_⟩
  · exact ReportSpec.summaryValue64_eq fun t ht => fits.offset new ht
  · rintro ⟨data, threshold, rfl, reached⟩
    exact complete.full room data threshold reached
  · intro t ctx next insert delete fresh sameDelay fits_next h
    rw [ReportSpec.credit64_eq fits_next.run.record] at h
    have notIn : t.triggerId ∉ (run source ⟨spec, []⟩ events).spec.history.map (·.triggerId) :=
      fun mem => (members _ mem).elim (none_yet _) fresh
    rw [(exchange_eq_some_iff complete.ids h).2
      ⟨rfl, complete.identified.nodup_ids_exchange notIn sameDelay h⟩]
    rfl

/-- A run with two reports, each for one of the trigger data. -/
def sampleFullEvents : List FlexibleEvent :=
  [Sample.credit (Sample.attributed "trigger1" 1 1 1), .deliver "source1:trigger1:1",
    Sample.credit (Sample.attributed "trigger2" 2 2 5)]

/-- The state of a source that may have two reports, after that run. -/
def sampleFullRun : FlexibleState :=
  run64 Sample.source ⟨⟨Sample.flexibleConfig 2, rfl, []⟩, []⟩ sampleFullEvents

theorem reports_complete_sample :
    (sampleFullRun.standing Sample.source).map EventReport.key = [(1, some 1), (2, some 1)] ∧
      ∀ key, key ∈ (sampleFullRun.standing Sample.source).map EventReport.key ↔
        ∃ data threshold, key = (data, some threshold) ∧
          sampleFullRun.spec.Reaches Sample.source.eventTime data threshold := by
  have prompt : ∀ event ∈ sampleFullEvents, event.IsPrompt 0 := by
    simp [FlexibleEvent.IsPrompt, sampleFullEvents, Sample.credit, Sample.onTime]
  have complete := reports_complete Sample.source ⟨Sample.flexibleConfig 2, rfl, []⟩ rfl 0
    (Int.le_refl 0) _ prompt (by decide) (by decide)
  have room : sampleFullRun.spec.reachedCount Sample.source.eventTime ≤
      sampleFullRun.spec.maxReports := by
    cbv
  exact ⟨by cbv, (complete.2.2.1 room).2⟩

end FlexibleState

end AttributionReporting
