import AttributionReporting.Flexible.Desired
import AttributionReporting.Proofs.Flexible.Totals
import AttributionReporting.Proofs.Flexible.Windows
import Mathlib.Data.List.Nodup

/-!
# Which buckets a history reaches

The reports that a history deserves depend on the time at which one asks only through the time they
are due. `ReportSpec.credits` is what does not depend on it: in rank order, the buckets that the
history reaches, each with the trigger that is credited with it, and `desired_eq_map` says that
these are the desired reports. A bucket is credited exactly when the total of its trigger data
reaches it (`mem_map_key_credits_iff`), and to one trigger only (`nodup_map_key_credits`).
-/

namespace AttributionReporting

/-- A bucket that a history reaches, and the trigger that lets it be reached. -/
structure Credit where
  trigger : AttributedTrigger
  rules : TriggerSpec
  /-- The end of the window in which the trigger falls. -/
  windowEnd : Int
  bucket : SummaryBucket

namespace Credit

/-- The trigger data and the start of the bucket, of which there is only one report. -/
def key (c : Credit) : UInt64 × Option UInt64 := (c.trigger.data, some c.bucket.first)

/-- When the report is due, asked at `now`. -/
def due (c : Credit) (eventTime delay now : Int) : Int :=
  c.rules.windows.reportTime eventTime delay now c.windowEnd

/-- The report of a credit. -/
def report (spec : ReportSpec) (source : Source) (ctx : ReportContext) (c : Credit) : EventReport :=
  (EventReport.ofAttributed source c.trigger (c.due source.eventTime ctx.delay ctx.now)
    ctx.triggerRate (spec.debugKeyFor ctx c.trigger)).withBucket c.bucket

end Credit

namespace FlexibleConfig

/-- The credits of `t` when it is ranked directly after `above`. -/
def creditsFor (config : FlexibleConfig) (eventTime : Int) (above : List AttributedTrigger)
    (t : AttributedTrigger) : List Credit :=
  match config.triggerSpecFor? t.data with
  | none => []
  | some rules =>
    match rules.windowEnd? eventTime t with
    | none => []
    | some windowEnd =>
      let reached := (rules.summaryBuckets config.maxReports).filter fun bucket =>
        decide (rules.total eventTime t.data above < bucket.first.toNat ∧
          bucket.first.toNat ≤ rules.total eventTime t.data (above ++ [t]))
      reached.map fun bucket => ⟨t, rules, windowEnd, bucket⟩

/-- The credits of ranked triggers that follow `above`. -/
def creditsFrom (config : FlexibleConfig) (eventTime : Int) :
    List AttributedTrigger → List AttributedTrigger → List Credit
  | _, [] => []
  | above, t :: rest =>
    config.creditsFor eventTime above t ++ creditsFrom config eventTime (above ++ [t]) rest

variable {config : FlexibleConfig} {eventTime : Int} {above rest : List AttributedTrigger}

/-- What a credit of `t` says of it. -/
theorem of_mem_creditsFor {t : AttributedTrigger} {c : Credit}
    (h : c ∈ config.creditsFor eventTime above t) :
    c.trigger = t ∧ config.triggerSpecFor? t.data = some c.rules ∧
      c.rules.windowEnd? eventTime t = some c.windowEnd ∧
        c.bucket ∈ c.rules.summaryBuckets config.maxReports ∧
          c.rules.total eventTime t.data above < c.bucket.first.toNat ∧
            c.bucket.first.toNat ≤ c.rules.total eventTime t.data (above ++ [t]) := by
  unfold creditsFor at h
  split at h
  · cases h
  · next rules hr =>
    split at h
    · cases h
    · next windowEnd hw =>
      obtain ⟨bucket, hb, rfl⟩ := List.mem_map.1 h
      obtain ⟨mem, reached⟩ := List.mem_filter.1 hb
      exact ⟨rfl, hr, hw, mem, of_decide_eq_true reached⟩

/-- The credits of `t` are the thresholds between the total above it and the one that includes
it. -/
theorem mem_map_key_creditsFor_iff {t : AttributedTrigger} {data threshold : UInt64} :
    (data, some threshold) ∈ (config.creditsFor eventTime above t).map Credit.key ↔
      ∃ rules, config.triggerSpecFor? data = some rules ∧
        threshold ∈ rules.thresholds config.maxReports ∧
          rules.total eventTime data above < threshold.toNat ∧
            threshold.toNat ≤ rules.total eventTime data (above ++ [t]) := by
  constructor
  · intro h
    obtain ⟨c, hc, eq⟩ := List.mem_map.1 h
    obtain ⟨ht, hr, -, hb, lt, le⟩ := of_mem_creditsFor hc
    simp only [Credit.key, Prod.mk.injEq, Option.some.injEq] at eq
    obtain ⟨rfl, rfl⟩ := eq
    rw [ht]
    refine ⟨c.rules, hr, ?_, lt, le⟩
    rw [← TriggerSpec.map_first_summaryBuckets]
    exact List.mem_map_of_mem hb
  · rintro ⟨rules, hr, mem, lt, le⟩
    have counted : ¬ (t.data ≠ data ∨ rules.windowEnd? eventTime t = none) := by
      intro out
      rw [TriggerSpec.total_append_of_not_counted _ out] at le
      omega
    rw [not_or, not_ne_iff] at counted
    obtain ⟨rfl, inside⟩ := counted
    obtain ⟨windowEnd, hw⟩ := Option.ne_none_iff_exists'.1 inside
    rw [← TriggerSpec.map_first_summaryBuckets] at mem
    obtain ⟨bucket, hb, rfl⟩ := List.mem_map.1 mem
    refine List.mem_map.2 ⟨⟨t, rules, windowEnd, bucket⟩, ?_, rfl⟩
    unfold creditsFor
    simp only [hr, hw]
    exact List.mem_map_of_mem (List.mem_filter.2 ⟨hb, decide_eq_true ⟨lt, le⟩⟩)

theorem mem_map_key_creditsFrom_iff {data threshold : UInt64} :
    (data, some threshold) ∈ (config.creditsFrom eventTime above rest).map Credit.key ↔
      ∃ rules, config.triggerSpecFor? data = some rules ∧
        threshold ∈ rules.thresholds config.maxReports ∧
          rules.total eventTime data above < threshold.toNat ∧
            threshold.toNat ≤ rules.total eventTime data (above ++ rest) := by
  induction rest generalizing above with
  | nil =>
    simp only [creditsFrom, List.map_nil, List.not_mem_nil, false_iff, List.append_nil]
    rintro ⟨rules, -, -, lt, le⟩
    omega
  | cons t rest ih =>
    rw [creditsFrom, List.map_append, List.mem_append, mem_map_key_creditsFor_iff, ih]
    simp only [List.append_assoc, List.singleton_append]
    constructor
    · rintro (⟨rules, hr, mem, lt, le⟩ | ⟨rules, hr, mem, lt, le⟩)
      · have grows := rules.total_le_total_append eventTime data (above ++ [t]) rest
        rw [List.append_assoc, List.singleton_append] at grows
        exact ⟨rules, hr, mem, lt, le.trans grows⟩
      · have grows := rules.total_le_total_append eventTime data above [t]
        exact ⟨rules, hr, mem, grows.trans_lt lt, le⟩
    · rintro ⟨rules, hr, mem, lt, le⟩
      by_cases first : threshold.toNat ≤ rules.total eventTime data (above ++ [t])
      · exact .inl ⟨rules, hr, mem, lt, first⟩
      · exact .inr ⟨rules, hr, mem, not_le.1 first, le⟩

theorem nodup_map_key_creditsFor (valid : config.validate = .ok ()) (t : AttributedTrigger) :
    ((config.creditsFor eventTime above t).map Credit.key).Nodup := by
  unfold creditsFor
  split
  · exact List.nodup_nil
  · next rules hr =>
    split
    · exact List.nodup_nil
    · have firsts := TriggerSpec.nodup_thresholds (triggerSpecFor?_valid valid hr) config.maxReports
      rw [← TriggerSpec.map_first_summaryBuckets] at firsts
      rw [List.map_map]
      refine List.Nodup.map_on (fun a ha b hb eq => ?_) (firsts.of_map.filter _)
      simp only [Function.comp_apply, Credit.key, Prod.mk.injEq, Option.some.injEq] at eq
      exact List.inj_on_of_nodup_map firsts (List.mem_of_mem_filter ha) (List.mem_of_mem_filter hb)
        eq.2

/-- A bucket is credited once: the thresholds of a trigger end where those of the next begin. -/
theorem nodup_map_key_creditsFrom (valid : config.validate = .ok ()) :
    ((config.creditsFrom eventTime above rest).map Credit.key).Nodup := by
  induction rest generalizing above with
  | nil => exact List.nodup_nil
  | cons t rest ih =>
    rw [creditsFrom, List.map_append, List.nodup_append]
    refine ⟨nodup_map_key_creditsFor valid t, ih, ?_⟩
    rintro key first _ later rfl
    obtain ⟨c, -, rfl⟩ := List.mem_map.1 first
    obtain ⟨rules, hr, -, -, le⟩ := mem_map_key_creditsFor_iff.1 first
    obtain ⟨rules', hr', -, lt, -⟩ := mem_map_key_creditsFrom_iff.1 later
    rw [hr] at hr'
    cases hr'
    omega

theorem creditsFrom_concat (above rest : List AttributedTrigger) (t : AttributedTrigger) :
    config.creditsFrom eventTime above (rest ++ [t]) =
      config.creditsFrom eventTime above rest ++ config.creditsFor eventTime (above ++ rest) t := by
  induction rest generalizing above with
  | nil => simp [creditsFrom]
  | cons u rest ih =>
    rw [List.cons_append, creditsFrom, creditsFrom, ih]
    simp

/-- A trigger is credited with nothing when the total above it reaches every threshold that it lets
be reached. -/
theorem creditsFor_eq_nil {t : AttributedTrigger}
    (reached : ∀ rules, config.triggerSpecFor? t.data = some rules →
      ∀ threshold ∈ rules.thresholds config.maxReports,
        threshold.toNat ≤ rules.total eventTime t.data (above ++ [t]) →
          threshold.toNat ≤ rules.total eventTime t.data above) :
    config.creditsFor eventTime above t = [] := by
  apply List.eq_nil_iff_forall_not_mem.2
  intro c hc
  obtain ⟨-, hr, -, hb, lt, le⟩ := of_mem_creditsFor hc
  have mem : c.bucket.first ∈ c.rules.thresholds config.maxReports := by
    rw [← TriggerSpec.map_first_summaryBuckets]
    exact List.mem_map_of_mem hb
  have before := reached c.rules hr c.bucket.first mem le
  omega

/-- What a credit says of its trigger, which is one of those ranked. -/
theorem of_mem_creditsFrom {c : Credit} (h : c ∈ config.creditsFrom eventTime above rest) :
    c.trigger ∈ rest ∧ config.triggerSpecFor? c.trigger.data = some c.rules ∧
      c.rules.windowEnd? eventTime c.trigger = some c.windowEnd := by
  induction rest generalizing above with
  | nil => cases h
  | cons t rest ih =>
    rcases List.mem_append.1 h with first | later
    · obtain ⟨rfl, hr, hw, -⟩ := of_mem_creditsFor first
      exact ⟨List.mem_cons_self, hr, hw⟩
    · obtain ⟨ht, facts⟩ := ih later
      exact ⟨List.mem_cons_of_mem t ht, facts⟩

end FlexibleConfig

/-! ## Ranks -/

namespace AttributedTrigger

theorem ranksBefore_iff {a b : AttributedTrigger} :
    a.ranksBefore b = true ↔
      b.priority < a.priority ∨ (a.priority = b.priority ∧ a.time ≤ b.time) :=
  decide_eq_true_iff

theorem ranksBefore_trans (a b c : AttributedTrigger) (hab : a.ranksBefore b = true)
    (hbc : b.ranksBefore c = true) : a.ranksBefore c = true := by
  rw [ranksBefore_iff] at *
  omega

theorem ranksBefore_total (a b : AttributedTrigger) :
    (a.ranksBefore b || b.ranksBefore a) = true := by
  rw [Bool.or_eq_true, ranksBefore_iff, ranksBefore_iff]
  omega

end AttributedTrigger

/-- A trigger goes directly before those that it ranks before, and the others keep their order. -/
theorem rankTriggers_cons (t : AttributedTrigger) (triggers : List AttributedTrigger) :
    rankTriggers (t :: triggers) =
      (rankTriggers triggers).filter (fun u => !t.ranksBefore u) ++
        t :: (rankTriggers triggers).filter t.ranksBefore := by
  obtain ⟨front, back, whole, rest, before⟩ := List.mergeSort_cons
    AttributedTrigger.ranksBefore_trans AttributedTrigger.ranksBefore_total t triggers
  have sorted := List.pairwise_mergeSort AttributedTrigger.ranksBefore_trans
    AttributedTrigger.ranksBefore_total (t :: triggers)
  rw [whole, List.pairwise_append, List.pairwise_cons] at sorted
  have after : ∀ u ∈ back, t.ranksBefore u = true := sorted.2.1.1
  have not_before : ∀ u ∈ front, ¬ t.ranksBefore u = true := by simpa using before
  have not_after : ∀ u ∈ back, ¬ (!t.ranksBefore u) = true := by simpa using after
  unfold rankTriggers
  rw [whole, rest, List.filter_append, List.filter_append, List.filter_eq_self.2 before,
    List.filter_eq_nil_iff.2 not_after, List.filter_eq_nil_iff.2 not_before,
    List.filter_eq_self.2 after, List.append_nil, List.nil_append]

theorem rankTriggers_concat {triggers : List AttributedTrigger} {t : AttributedTrigger}
    (last : ∀ u ∈ triggers, u.ranksBefore t = true) :
    rankTriggers (triggers ++ [t]) = rankTriggers triggers ++ [t] := by
  induction triggers with
  | nil => simp [rankTriggers]
  | cons u rest ih =>
    obtain ⟨first, others⟩ := List.forall_mem_cons.1 last
    rw [List.cons_append, rankTriggers_cons, rankTriggers_cons, ih others, List.filter_append,
      List.filter_append]
    simp [first]

/-! ## Histories -/

theorem rankTriggers_perm (triggers : List AttributedTrigger) :
    (rankTriggers triggers).Perm triggers :=
  List.mergeSort_perm triggers _

namespace ReportSpec

/-- The buckets that the history of a source reaches, in rank order. -/
def credits (spec : ReportSpec) (eventTime : Int) : List Credit :=
  spec.config.creditsFrom eventTime [] (rankTriggers spec.history)

theorem desiredFrom_eq_map (spec : ReportSpec) (source : Source) (ctx : ReportContext)
    (above rest : List AttributedTrigger) :
    spec.desiredFrom source ctx above rest =
      (spec.config.creditsFrom source.eventTime above rest).map
        (Credit.report spec source ctx) := by
  induction rest generalizing above with
  | nil => rfl
  | cons t rest ih =>
    rw [desiredFrom, FlexibleConfig.creditsFrom, List.map_append, ih]
    congr 1
    unfold reportsFor FlexibleConfig.creditsFor
    rcases hr : spec.config.triggerSpecFor? t.data with _ | rules
    · rfl
    · rcases hw : rules.windowEnd? source.eventTime t with _ | windowEnd
      · simp only [hw, List.map_nil]
      · simp only [hw, List.map_map]
        rfl

/-- The desired reports are those of the credits. -/
theorem desired_eq_map (spec : ReportSpec) (source : Source) (ctx : ReportContext) :
    spec.desired source ctx =
      (spec.credits source.eventTime).map (Credit.report spec source ctx) :=
  desiredFrom_eq_map spec source ctx [] _

/-- A bucket is reached when its start is a threshold and at most the total. -/
def Reaches (spec : ReportSpec) (eventTime : Int) (data threshold : UInt64) : Prop :=
  ∃ rules, spec.config.triggerSpecFor? data = some rules ∧
    threshold ∈ rules.thresholds spec.config.maxReports ∧
      threshold.toNat ≤ spec.summaryValue eventTime data

variable {spec : ReportSpec} {eventTime : Int}

/-- The credits of a history are the buckets that its totals reach. -/
theorem mem_map_key_credits_iff {key : UInt64 × Option UInt64} :
    key ∈ (spec.credits eventTime).map Credit.key ↔
      ∃ data threshold, key = (data, some threshold) ∧ spec.Reaches eventTime data threshold := by
  have reached (data threshold : UInt64) :
      (data, some threshold) ∈ (spec.credits eventTime).map Credit.key ↔
        spec.Reaches eventTime data threshold := by
    rw [credits, FlexibleConfig.mem_map_key_creditsFrom_iff, List.nil_append]
    refine exists_congr fun rules => and_congr_right fun hr => and_congr_right fun mem => ?_
    rw [summaryValue_of_some hr, TriggerSpec.total_perm (rankTriggers_perm spec.history)]
    refine and_iff_right ?_
    have positive := TriggerSpec.threshold_pos (FlexibleConfig.triggerSpecFor?_valid spec.valid hr)
      mem
    exact positive
  constructor
  · intro h
    obtain ⟨c, -, rfl⟩ := List.mem_map.1 h
    exact ⟨_, _, rfl, (reached _ _).1 h⟩
  · rintro ⟨data, threshold, rfl, h⟩
    exact (reached data threshold).2 h

/-- No bucket is credited twice. -/
theorem nodup_map_key_credits (spec : ReportSpec) (eventTime : Int) :
    ((spec.credits eventTime).map Credit.key).Nodup :=
  FlexibleConfig.nodup_map_key_creditsFrom spec.valid

theorem of_mem_credits {c : Credit} (h : c ∈ spec.credits eventTime) :
    c.trigger ∈ spec.history ∧ spec.config.triggerSpecFor? c.trigger.data = some c.rules ∧
      c.rules.windowEnd? eventTime c.trigger = some c.windowEnd := by
  obtain ⟨mem, facts⟩ := FlexibleConfig.of_mem_creditsFrom h
  exact ⟨(rankTriggers_perm spec.history).mem_iff.1 mem, facts⟩

theorem Reaches.record {data threshold : UInt64}
    (h : spec.Reaches eventTime data threshold) (t : AttributedTrigger) :
    (spec.record t).Reaches eventTime data threshold := by
  obtain ⟨rules, hr, mem, le⟩ := h
  exact ⟨rules, hr, mem, le.trans (spec.summaryValue_le_record eventTime data t)⟩

end ReportSpec

end AttributionReporting
