import AttributionReporting.Proofs.Flexible.Run
import Mathlib

/-!
# Flexible reports are sound

Whatever happens to a flexible source, its standing reports never overstate what was attributed to
it: no two of them share their trigger data and bucket, and each stands for a bucket that the total
of its trigger data has reached (`Sound`). One step keeps this (`Sound.step`), so every run does.
-/

open scoped List

namespace AttributionReporting

namespace FlexibleState

variable {source : Source} {s : FlexibleState} {t : AttributedTrigger} {ctx : ReportContext}
  {next : ReportSpec} {insert delete : List EventReport}

/-- The ids of the store are distinct, and each standing report of the source is the only one for a
bucket that the history reaches. -/
structure Sound (source : Source) (s : FlexibleState) : Prop where
  ids : (s.stored.map EventReport.id).Nodup
  keys : ((s.standing source).map EventReport.key).Nodup
  reached : ∀ key ∈ (s.standing source).map EventReport.key, ∃ data threshold,
    key = (data, some threshold) ∧ s.spec.Reaches source.eventTime data threshold

theorem map_fst_slots (reports : List EventReport) :
    (reports.map EventReport.slot).map Prod.fst = reports.map EventReport.key := by
  rw [List.map_map]
  rfl

/-- The keys of the standing reports after an exchange: those of the locked ones, and those
wanted. -/
theorem standing_keys_exchange (ids : (s.stored.map EventReport.id).Nodup)
    (h : s.spec.credit source t (s.own source) ctx = .reports next insert delete) :
    ((standing source ⟨next, remainingReports delete s.stored ++ insert⟩).map
      EventReport.key).Perm
      ((lockedReports (s.own source) ctx.now).map EventReport.key ++
        (openReports s.spec.maxReports (next.desired source ctx)
          (lockedReports (s.own source) ctx.now) ctx.now).map EventReport.key) := by
  obtain ⟨-, -, eq⟩ := ReportSpec.credit_eq_reports h
  have slots := standing_exchange_perm (nodup_ids_own ids)
    (fun r hr => (ReportSpec.desired_pending hr).1) eq
  rw [← map_fst_slots, ← map_fst_slots, ← map_fst_slots, ← List.map_append]
  unfold standing
  rw [own_exchange h]
  exact slots.map Prod.fst

theorem Sound.settle (sound : Sound source s) (id : String) (status : EventReportStatus) :
    Sound source (s.settle id status) := by
  have sub : (((s.settle id status).standing source).map EventReport.key).Sublist
      ((s.standing source).map EventReport.key) := by
    rw [← map_fst_slots, ← map_fst_slots]
    exact (standing_settle_sublist id status).map Prod.fst
  exact ⟨nodup_ids_settle sound.ids id status, sound.keys.sublist sub,
    fun key hk => sound.reached key (sub.subset hk)⟩

/-- More triggers in the history take no bucket back. -/
theorem Sound.record (sound : Sound source s) (t : AttributedTrigger) :
    Sound source { s with spec := s.spec.record t } := by
  refine ⟨sound.ids, sound.keys, fun key hk => ?_⟩
  obtain ⟨data, threshold, eq, reached⟩ := sound.reached key hk
  exact ⟨data, threshold, eq, reached.record t⟩

theorem nodup_locked_append_uncovered (keys : ((s.standing source).map EventReport.key).Nodup)
    (spec : ReportSpec) (ctx : ReportContext) :
    ((lockedReports (s.own source) ctx.now).map EventReport.key ++
      (uncoveredReports (spec.desired source ctx) (lockedReports (s.own source) ctx.now)
        ctx.now).map EventReport.key).Nodup := by
  rw [List.nodup_append]
  refine ⟨?_, ?_, ?_⟩
  · have all := ((locked_append_changeable_perm (s.own source) ctx.now).map
      EventReport.key).symm.nodup keys
    rw [List.map_append] at all
    exact all.of_append_left
  · have desired := spec.nodup_map_key_credits source.eventTime
    rw [← ReportSpec.map_key_desired spec source ctx] at desired
    exact desired.sublist (List.filter_sublist.map _)
  · intro key hl key' ho same
    obtain ⟨l, mem_l, rfl⟩ := List.mem_map.1 hl
    obtain ⟨o, mem_o, rfl⟩ := List.mem_map.1 ho
    exact (mem_uncoveredReports.1 mem_o).2.1 l mem_l same

/-- Both the locked reports and the uncovered ones are about buckets that the history reaches. -/
theorem Sound.reached_of_mem (sound : Sound source s) (ctx : ReportContext)
    (grown : ∀ data threshold, s.spec.Reaches source.eventTime data threshold →
      next.Reaches source.eventTime data threshold)
    {key : UInt64 × Option UInt64}
    (h : key ∈ (lockedReports (s.own source) ctx.now).map EventReport.key ++
      (uncoveredReports (next.desired source ctx) (lockedReports (s.own source) ctx.now)
        ctx.now).map EventReport.key) :
    ∃ data threshold, key = (data, some threshold) ∧
      next.Reaches source.eventTime data threshold := by
  rcases List.mem_append.1 h with hl | ho
  · obtain ⟨r, hr, rfl⟩ := List.mem_map.1 hl
    obtain ⟨mem, standing, -⟩ := mem_lockedReports.1 hr
    obtain ⟨data, threshold, eq, reached⟩ :=
      sound.reached r.key (List.mem_map_of_mem (List.mem_filter.2 ⟨mem, standing⟩))
    exact ⟨data, threshold, eq, grown data threshold reached⟩
  · rw [← ReportSpec.mem_map_key_credits_iff, ← ReportSpec.map_key_desired next source ctx]
    exact (List.filter_sublist.map _).subset ho

theorem nodup_keys_exchange (ids : (s.stored.map EventReport.id).Nodup)
    (keys : ((s.standing source).map EventReport.key).Nodup)
    (h : s.spec.credit source t (s.own source) ctx = .reports next insert delete) :
    ((standing source ⟨next, remainingReports delete s.stored ++ insert⟩).map
      EventReport.key).Nodup := by
  refine (standing_keys_exchange ids h).symm.nodup ?_
  refine (nodup_locked_append_uncovered keys next ctx).sublist ?_
  exact (List.Sublist.refl _).append ((List.take_sublist _ _).map _)

theorem Sound.exchange (sound : Sound source s)
    (h : s.spec.credit source t (s.own source) ctx = .reports next insert delete)
    (ids : ((remainingReports delete s.stored ++ insert).map EventReport.id).Nodup) :
    Sound source ⟨next, remainingReports delete s.stored ++ insert⟩ := by
  refine ⟨ids, nodup_keys_exchange sound.ids sound.keys h, fun key hk => ?_⟩
  obtain ⟨rfl, -⟩ := ReportSpec.credit_eq_reports h
  have mem := (standing_keys_exchange sound.ids h).mem_iff.1 hk
  refine sound.reached_of_mem ctx (fun _ _ reached => reached.record t) ?_
  exact ((List.Sublist.refl _).append ((List.take_sublist _ _).map _)).subset mem

/-- Every event keeps the reports sound. -/
theorem Sound.step (sound : Sound source s) (event : FlexibleEvent) :
    Sound source (s.step source event) := by
  cases event with
  | deliver id => exact sound.settle id _
  | retract id => exact sound.settle id _
  | credit t ctx =>
    rw [FlexibleState.step]
    rcases h : s.spec.credit source t (s.own source) ctx with _ | next | ⟨next, insert, delete⟩
    · exact sound
    · obtain ⟨rfl, -⟩ := ReportSpec.credit_eq_historyOnly_iff.1 h
      exact sound.record t
    · rw [apply]
      rcases stored : exchangeReports? insert delete s.stored with _ | after
      · exact sound
      · obtain ⟨rfl, ids⟩ := (exchange_eq_some_iff sound.ids h).1 stored
        exact sound.exchange h ids

/-- A source without reports is sound. -/
theorem sound_of_forall_ne {stored : List EventReport} (spec : ReportSpec)
    (ids : (stored.map EventReport.id).Nodup) (others : ∀ r ∈ stored, r.sourceId ≠ source.id) :
    Sound source ⟨spec, stored⟩ := by
  have none_own : standing source ⟨spec, stored⟩ = [] := by
    apply List.filter_eq_nil_iff.2
    intro r hr
    obtain ⟨mem, mine⟩ := List.mem_filter.1 hr
    exact absurd (eq_of_beq mine) (others r mem)
  refine ⟨ids, ?_, ?_⟩
  · rw [none_own]
    exact List.nodup_nil
  · rw [none_own]
    simp

/-- In every state of every run, the standing reports of a flexible source name different buckets,
each of them one of its thresholds that the total of its trigger data has reached. What the next
trigger deletes is neither delivered nor overdue, and what it inserts is not due in the past. -/
theorem reports_sound (source : Source) (spec : ReportSpec) (stored : List EventReport)
    (ids : (stored.map EventReport.id).Nodup) (others : ∀ r ∈ stored, r.sourceId ≠ source.id)
    (events : List FlexibleEvent) :
    let s := run source ⟨spec, stored⟩ events
    ((s.standing source).map EventReport.key).Nodup ∧
      (∀ r ∈ s.standing source, ∃ rules threshold,
        s.spec.config.triggerSpecFor? r.credited.data = some rules ∧
          r.bucket.map (·.first) = some threshold ∧
            threshold ∈ rules.thresholds s.spec.config.maxReports ∧
              threshold.toNat ≤ s.spec.summaryValue source.eventTime r.credited.data) ∧
        ∀ t ctx next insert delete,
          s.spec.credit source t (s.own source) ctx = .reports next insert delete →
            (∀ r ∈ delete, r.status ≠ .delivered ∧ ctx.now ≤ r.reportTime) ∧
              ∀ r ∈ insert, ctx.now ≤ r.reportTime := by
  intro s
  have sound : Sound source s :=
    run_invariant (fun _ event h => h.step event) (sound_of_forall_ne spec ids others) events
  refine ⟨sound.keys, fun r hr => ?_, fun t ctx next insert delete h => ⟨fun r hr => ?_, ?_⟩⟩
  · obtain ⟨data, threshold, eq, rules, hrules, mem, le⟩ :=
      sound.reached r.key (List.mem_map_of_mem hr)
    obtain ⟨rfl, first⟩ := Prod.mk.inj eq
    exact ⟨rules, threshold, hrules, first, mem, le⟩
  · obtain ⟨-, -, eq⟩ := ReportSpec.credit_eq_reports h
    obtain ⟨-, -, free⟩ := mem_changeableReports.1 (mem_of_mem_delete eq hr)
    simpa [EventReport.isLocked] using free
  · intro r hr
    obtain ⟨-, -, eq⟩ := ReportSpec.credit_eq_reports h
    exact (mem_of_mem_openReports (mem_of_mem_insert eq hr)).2.2

/-- A run in which the only report of the source goes to the trigger with the higher priority, while
another source has a report as well. -/
def sampleRun : FlexibleState :=
  run Sample.source ⟨Sample.flexibleSpec, [{ Sample.eventReport with sourceId := "source2" }]⟩
    [Sample.credit (Sample.attributed "trigger1" 1 1 1),
      Sample.credit (Sample.attributed "trigger2" 2 2 5)]

theorem reports_sound_sample :
    (sampleRun.standing Sample.source).map EventReport.key = [(2, some 1)] ∧
      ∀ r ∈ sampleRun.standing Sample.source, ∃ rules threshold,
        sampleRun.spec.config.triggerSpecFor? r.credited.data = some rules ∧
          r.bucket.map (·.first) = some threshold ∧
            threshold ∈ rules.thresholds sampleRun.spec.config.maxReports ∧
              threshold.toNat ≤
                sampleRun.spec.summaryValue Sample.source.eventTime r.credited.data := by
  have ids : ([{ Sample.eventReport with sourceId := "source2" }].map EventReport.id).Nodup :=
    List.nodup_singleton _
  have others : ∀ r ∈ [{ Sample.eventReport with sourceId := "source2" }],
      r.sourceId ≠ Sample.source.id := by
    intro r hr
    rw [List.mem_singleton.1 hr]
    decide
  refine ⟨by cbv, ?_⟩
  exact (reports_sound Sample.source Sample.flexibleSpec _ ids others _).2.1

end FlexibleState

end AttributionReporting
