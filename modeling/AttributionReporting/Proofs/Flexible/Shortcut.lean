import AttributionReporting.Proofs.Flexible.InStep
import AttributionReporting.Proofs.Flexible.Soundness
import Mathlib.Data.List.Induction

/-!
# When a trigger may leave the reports alone

A trigger that lets no new bucket of its trigger data be reached moves no report, whatever its rank.
This is a shortcut for reconciling the reports with the longer history, and it is not always exact:
a trigger that ranks high takes buckets from others, which may then be due at another time, or lets
its trigger data go before another one that does not find room any more (`shortcut_not_exact`). As
long as time runs forward, the shortcut is exact throughout a run if and only if no trigger that
takes it changes which slots are wanted (`shortcut_exact_iff`). The reason is that the reports are
otherwise in step with the history at all times. In particular, the shortcut is exact while every
trigger ranks after those before it (`shortcutsInStep_of_ranksLast`).
-/

open scoped List

namespace AttributionReporting

namespace FlexibleEvent

/-- Triggers are credited under one delay, and reports are only delivered. -/
def IsSteady (delay : Int) : FlexibleEvent → Prop
  | credit _ ctx => ctx.delay = delay
  | deliver _ => True
  | retract _ => False

def now? : FlexibleEvent → Option Int
  | credit _ ctx => some ctx.now
  | deliver _ => none
  | retract _ => none

end FlexibleEvent

namespace FlexibleState

variable {source : Source} {s : FlexibleState} {t : AttributedTrigger} {ctx : ReportContext}
  {next : ReportSpec} {insert delete : List EventReport} {delay : Int}

/-- Reconciling once is enough: what a trigger that moves reports leaves behind is in step. -/
theorem inStep_exchange (ids : (s.stored.map EventReport.id).Nodup)
    (h : s.spec.credit source t (s.own source) ctx = .reports next insert delete) :
    next.InStep source (own source ⟨next, remainingReports delete s.stored ++ insert⟩) ctx := by
  rw [own_exchange h]
  obtain ⟨rfl, -, eq⟩ := ReportSpec.credit_eq_reports h
  have pending : ∀ r ∈ (s.spec.record t).desired source ctx, r.status = .pending :=
    fun r hr => (ReportSpec.desired_pending hr).1
  rw [ReportSpec.inStep_iff, ReportSpec.wanted,
    lockedReports_exchange (nodup_ids_own ids) pending eq]
  exact (changeableReports_exchange (nodup_ids_own ids) pending eq).symm

/-! ## What keeps reports in step -/

theorem inStep_later (keys : ((s.standing source).map EventReport.key).Nodup)
    {later : ReportContext}
    (h : s.spec.InStep source (s.own source) ctx) (sameDelay : later.delay = ctx.delay)
    (le : ctx.now ≤ later.now) : s.spec.InStep source (s.own source) later := by
  have same := h.map (f := id) sameDelay le keys (fun _ => rfl) (fun _ => rfl) (fun _ => id)
  rwa [List.map_id] at same

theorem isLocked_deliver {r : EventReport} {id : String} {now : Int} (h : r.isLocked now = true) :
    (r.settle id .delivered).isLocked now = true := by
  unfold EventReport.settle
  split_ifs
  · rfl
  · exact h

theorem isStanding_deliver {r : EventReport} {id : String} :
    (r.settle id .delivered).isStanding = r.isStanding := by
  unfold EventReport.settle
  split_ifs with settled
  · rw [settled.2]
    rfl
  · rfl

theorem inStep_deliver (keys : ((s.standing source).map EventReport.key).Nodup)
    (h : s.spec.InStep source (s.own source) ctx) (id : String) :
    s.spec.InStep source ((s.settle id .delivered).own source) ctx := by
  rw [own_settle]
  exact h.map rfl (Int.le_refl _) keys (fun _ => EventReport.settle_slot)
    (fun _ => isStanding_deliver) (fun _ => isLocked_deliver)

/-- After a trigger that was credited in step, unless by a shortcut that was not exact, the reports
are in step from then on. -/
theorem inStep_credit (sound : Sound source s) {later : ReportContext}
    (h : s.spec.InStep source (s.own source) ctx) (sameDelay : later.delay = ctx.delay)
    (le : ctx.now ≤ later.now)
    (exact_shortcut : ∀ next, s.spec.credit source t (s.own source) ctx = .historyOnly next →
      next.InStep source (s.own source) ctx) :
    (s.step source (.credit t ctx)).spec.InStep source
      ((s.step source (.credit t ctx)).own source) later := by
  have sound' := sound.step (.credit t ctx)
  refine inStep_later sound'.keys ?_ sameDelay le
  rw [FlexibleState.step]
  rcases outcome : s.spec.credit source t (s.own source) ctx with _ | next | ⟨next, insert, delete⟩
  · exact h
  · exact exact_shortcut next outcome
  · rw [apply]
    rcases stored : exchangeReports? insert delete s.stored with _ | after
    · exact h
    · obtain ⟨rfl, -⟩ := (exchange_eq_some_iff sound.ids outcome).1 stored
      exact inStep_exchange sound.ids outcome

/-- A source without triggers and reports has nothing to reconcile. -/
theorem inStep_of_new {spec : ReportSpec} (new : spec.history = []) :
    spec.InStep source (own source ⟨spec, []⟩) ctx := by
  have none_desired : spec.desired source ctx = [] := by
    unfold ReportSpec.desired rankTriggers
    rw [new, List.mergeSort_nil]
    rfl
  unfold ReportSpec.InStep reconcile openReports
  simp [none_desired, own, matchPending]

/-! ## Runs -/

/-- Every trigger of a run that moves no report leaves the reports in step with the history. -/
def ShortcutsInStep (source : Source) (start : FlexibleState) (events : List FlexibleEvent) :
    Prop :=
  ∀ before t ctx next, before ++ [.credit t ctx] <+: events →
    let s := run source start before
    s.spec.credit source t (s.own source) ctx = .historyOnly next →
      next.InStep source (s.own source) ctx

/-- No trigger of a run that moves no report changes which slots are wanted. -/
def ShortcutsKeepWanted (source : Source) (start : FlexibleState) (events : List FlexibleEvent) :
    Prop :=
  ∀ before t ctx next, before ++ [.credit t ctx] <+: events →
    let s := run source start before
    s.spec.credit source t (s.own source) ctx = .historyOnly next →
      ((next.wanted source (s.own source) ctx).map EventReport.slot).Perm
        ((s.spec.wanted source (s.own source) ctx).map EventReport.slot)

/-- The events of a run in which time runs forward and reports are only delivered. -/
structure Steady (delay : Int) (events : List FlexibleEvent) : Prop where
  each : ∀ event ∈ events, event.IsSteady delay
  ordered : (events.filterMap FlexibleEvent.now?).Pairwise (· ≤ ·)

theorem Steady.of_prefix {events before : List FlexibleEvent} (h : Steady delay events)
    (sub : before <+: events) : Steady delay before :=
  ⟨fun event he => h.each event (sub.subset he), h.ordered.sublist (sub.sublist.filterMap _)⟩

theorem later_of_prefix {events before : List FlexibleEvent} (steady : Steady delay events)
    (sub : before ++ [.credit t ctx] <+: events) :
    ctx.delay = delay ∧ ∀ now ∈ before.filterMap FlexibleEvent.now?, now ≤ ctx.now := by
  have upTo := steady.of_prefix sub
  have ordered := upTo.ordered
  rw [List.filterMap_append] at ordered
  refine ⟨upTo.each (.credit t ctx) (by simp), fun now h => ?_⟩
  exact (List.pairwise_append.1 ordered).2.2 now h ctx.now (List.mem_singleton_self _)

/-- The reports of a source are in step with its history after every run in which time runs forward
and all shortcuts so far were exact. -/
theorem inStep_run {spec : ReportSpec} (new : spec.history = []) {events : List FlexibleEvent}
    (steady : Steady delay events) (exact_so_far : ShortcutsInStep source ⟨spec, []⟩ events)
    (sameDelay : ctx.delay = delay)
    (later : ∀ now ∈ events.filterMap FlexibleEvent.now?, now ≤ ctx.now) :
    let s := run source ⟨spec, []⟩ events
    s.spec.InStep source (s.own source) ctx := by
  induction events using List.reverseRecOn generalizing ctx with
  | nil => exact inStep_of_new new
  | append_singleton before event ih =>
    have sub : before <+: before ++ [event] := List.prefix_append before [event]
    have so_far : ShortcutsInStep source ⟨spec, []⟩ before :=
      fun b t c n h => exact_so_far b t c n (h.trans sub)
    have sound : Sound source (run source ⟨spec, []⟩ before) :=
      run_invariant (fun _ event h => h.step event)
        (sound_of_forall_ne spec (by simp) (by simp)) before
    rw [List.filterMap_append] at later
    rw [run_concat]
    cases event with
    | retract id => exact (steady.each (.retract id) (by simp)).elim
    | deliver id =>
      refine inStep_deliver sound.keys (ih (steady.of_prefix sub) so_far sameDelay ?_) id
      exact fun now h => later now (List.mem_append_left _ h)
    | credit t c =>
      obtain ⟨delay_eq, earlier⟩ := later_of_prefix steady (List.prefix_refl _)
      have le : c.now ≤ ctx.now := later c.now (List.mem_append_right _ (List.mem_singleton_self _))
      exact inStep_credit sound (ih (steady.of_prefix sub) so_far delay_eq earlier)
        (sameDelay.trans delay_eq.symm) le fun next h =>
          exact_so_far before t c next (List.prefix_refl _) h

/-- A shortcut taken in step is exact when the slots that are wanted stay the same. -/
theorem inStep_iff_of_inStep (h : s.spec.InStep source (s.own source) ctx) :
    next.InStep source (s.own source) ctx ↔
      ((next.wanted source (s.own source) ctx).map EventReport.slot).Perm
        ((s.spec.wanted source (s.own source) ctx).map EventReport.slot) := by
  rw [ReportSpec.inStep_iff] at h ⊢
  exact ⟨fun inStep => inStep.trans h.symm, fun same => same.trans h⟩

theorem shortcutsInStep_of_keepWanted {spec : ReportSpec} (new : spec.history = [])
    {events : List FlexibleEvent} (steady : Steady delay events)
    (keep : ShortcutsKeepWanted source ⟨spec, []⟩ events) :
    ShortcutsInStep source ⟨spec, []⟩ events := by
  induction events using List.reverseRecOn with
  | nil =>
    intro before t ctx next sub
    simp at sub
  | append_singleton rest event ih =>
    have prefix_rest : rest <+: rest ++ [event] := List.prefix_append rest [event]
    have so_far : ShortcutsInStep source ⟨spec, []⟩ rest :=
      ih (steady.of_prefix prefix_rest) fun b t c n h => keep b t c n (h.trans prefix_rest)
    intro before t ctx next sub s h
    rcases List.prefix_concat_iff.1 sub with whole | earlier
    · obtain ⟨rfl, -⟩ := List.append_inj' whole rfl
      obtain ⟨sameDelay, later⟩ := later_of_prefix steady sub
      have inStep := inStep_run new (steady.of_prefix prefix_rest) so_far sameDelay later
      exact (inStep_iff_of_inStep inStep).2 (keep before t ctx next sub h)
    · exact so_far before t ctx next earlier h

/-! ## Triggers that rank last -/

/-- A trigger that moves no report and ranks last changes no wanted slot. -/
theorem shortcutsKeepWanted_of_ranksLast {start : FlexibleState} {events : List FlexibleEvent}
    (last : ∀ before t ctx, before ++ [.credit t ctx] <+: events →
      ∀ u ∈ (run source start before).spec.history, u.ranksBefore t = true) :
    ShortcutsKeepWanted source start events := by
  intro before t ctx next sub s h
  have same := ReportSpec.credits_of_historyOnly h (last before t ctx sub)
  obtain ⟨rfl, -⟩ := ReportSpec.credit_eq_historyOnly_iff.1 h
  rw [ReportSpec.map_slot_wanted, ReportSpec.map_slot_wanted, same]
  rfl

/-- So while each trigger ranks after those of the history, as when all have the same priority and
come in order, the shortcut is exact. -/
theorem shortcutsInStep_of_ranksLast {spec : ReportSpec} (new : spec.history = [])
    {events : List FlexibleEvent} (steady : Steady delay events)
    (last : ∀ before t ctx, before ++ [.credit t ctx] <+: events →
      ∀ u ∈ (run source ⟨spec, []⟩ before).spec.history, u.ranksBefore t = true) :
    ShortcutsInStep source ⟨spec, []⟩ events :=
  shortcutsInStep_of_keepWanted new steady (shortcutsKeepWanted_of_ranksLast last)

/-! ## When all shortcuts are exact -/

/-- For a trigger that moves no report, to be in step means that the slots that are wanted now are
those of the reports that may change. Throughout a run in which time runs forward, this holds of
every such trigger exactly when none of them changes which slots are wanted. -/
theorem shortcut_exact_iff (source : Source) (spec : ReportSpec) (new : spec.history = [])
    (events : List FlexibleEvent) :
    (∀ t ctx next,
      let s := run source ⟨spec, []⟩ events
      s.spec.credit source t (s.own source) ctx = .historyOnly next →
        (reconcile next.maxReports (next.desired source ctx) (s.own source) ctx.now = ([], []) ↔
          ((next.wanted source (s.own source) ctx).map EventReport.slot).Perm
            ((changeableReports (s.own source) ctx.now).map EventReport.slot))) ∧
      ∀ delay, Steady delay events →
        (ShortcutsInStep source ⟨spec, []⟩ events ↔
          ShortcutsKeepWanted source ⟨spec, []⟩ events) := by
  refine ⟨?_, fun delay steady => ⟨fun inStep => ?_, shortcutsInStep_of_keepWanted new steady⟩⟩
  · intro t ctx next s _
    exact reconcile_eq_nil_iff
  · intro before t ctx next sub s h
    have so_far : ShortcutsInStep source ⟨spec, []⟩ before :=
      fun b t' c n h' => inStep b t' c n (h'.trans ((List.prefix_append _ _).trans sub))
    obtain ⟨sameDelay, later⟩ := later_of_prefix steady sub
    have before_inStep := inStep_run new
      (steady.of_prefix ((List.prefix_append _ _).trans sub)) so_far sameDelay later
    exact (inStep_iff_of_inStep before_inStep).1 (inStep before t ctx next sub h)

/-! ## A shortcut that is not exact -/

/-- Two triggers with different data, of which the second takes the only report. -/
def sampleBefore : List FlexibleEvent :=
  [Sample.credit (Sample.attributed "trigger1" 1 1 1),
    Sample.credit (Sample.attributed "trigger2" 2 2 5)]

/-- A trigger with the data of the first one, which ranks before both. -/
def sampleThird : AttributedTrigger := Sample.attributed "trigger3" 3 1 10

theorem sample_shortcut :
    let s := run Sample.source ⟨Sample.flexibleSpec, []⟩ sampleBefore
    s.spec.credit Sample.source sampleThird (s.own Sample.source) (Sample.onTime sampleThird) =
      .historyOnly (s.spec.record sampleThird) := by
  refine ReportSpec.credit_eq_historyOnly_iff.2
    ⟨rfl, ⟨[1, 2], ⟨0, [Time.days 2]⟩, .count, []⟩, by cbv, by cbv⟩

theorem sample_not_inStep :
    let s := run Sample.source ⟨Sample.flexibleSpec, []⟩ sampleBefore
    let next := s.spec.record sampleThird
    let ctx := Sample.onTime sampleThird
    let exchange :=
      reconcile next.maxReports (next.desired Sample.source ctx) (s.own Sample.source) ctx.now
    exchange.1.map EventReport.id = ["source1:trigger3:1"] ∧
      exchange.2.map EventReport.id = ["source1:trigger2:1"] :=
  ⟨by cbv, by cbv⟩

/-- The third trigger takes the shortcut, although the only report should go to it. -/
theorem shortcut_not_exact :
    let s := run Sample.source ⟨Sample.flexibleSpec, []⟩ sampleBefore
    let next := s.spec.record sampleThird
    let ctx := Sample.onTime sampleThird
    s.spec.credit Sample.source sampleThird (s.own Sample.source) ctx = .historyOnly next ∧
      reconcile next.maxReports (next.desired Sample.source ctx) (s.own Sample.source) ctx.now ≠
        ([], []) := by
  refine ⟨sample_shortcut, fun same => ?_⟩
  have inserted := sample_not_inStep.1
  rw [same] at inserted
  cases inserted

/-- In the run with the third trigger the slots that are wanted change, and time runs forward. -/
theorem shortcut_exact_iff_sample :
    let events := sampleBefore ++ [.credit sampleThird (Sample.onTime sampleThird)]
    Steady 0 events ∧ ¬ ShortcutsKeepWanted Sample.source ⟨Sample.flexibleSpec, []⟩ events := by
  intro events
  have steady : Steady 0 events := by
    refine ⟨?_, by decide⟩
    simp [events, sampleBefore, FlexibleEvent.IsSteady, Sample.credit, Sample.onTime]
  refine ⟨steady, fun keep => ?_⟩
  have exact_shortcuts :=
    ((shortcut_exact_iff Sample.source Sample.flexibleSpec rfl events).2 0 steady).2 keep
  have inStep := exact_shortcuts sampleBefore sampleThird (Sample.onTime sampleThird) _
    (List.prefix_refl _) sample_shortcut
  have inserted := sample_not_inStep.1
  rw [show reconcile _ _ _ _ = _ from inStep] at inserted
  cases inserted

end FlexibleState

end AttributionReporting
