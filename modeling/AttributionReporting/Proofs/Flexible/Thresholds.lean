import AttributionReporting.Proofs.Flexible.Exactness

/-!
# Thresholds and their reports

How many thresholds a trigger data has reached is counted in two ways. Its total adds up the
triggers of the history as they arrived; the desired reports go through all triggers in rank order
and give one to each threshold that lies between the total before a trigger and the total with it.
Both count the same thresholds, also when a total stops at the largest number
(`desired_reports_of_data`): the reports of a trigger data are for the buckets up to its total, each
bucket once, and each credits the first trigger in rank order at which the total reaches the bucket.
-/

namespace AttributionReporting

/-! ## Running totals -/

/-- The sum of two numbers, or the largest number if the sum is larger than that. -/
def saturatingAdd (a b : UInt64) : UInt64 :=
  if a.toNat + b.toNat ≤ maxUInt64.toNat then a + b else maxUInt64

theorem toNat_saturatingAdd (a b : UInt64) :
    (saturatingAdd a b).toNat = min (a.toNat + b.toNat) maxUInt64.toNat := by
  unfold saturatingAdd
  split_ifs with fits
  · have below : a.toNat + b.toNat < 2 ^ 64 := by
      have : maxUInt64.toNat = 2 ^ 64 - 1 := rfl
      omega
    rw [UInt64.toNat_add, Nat.mod_eq_of_lt below, min_eq_left fits]
  · rw [min_eq_right (not_le.1 fits).le]

/-- Adding one number after the other stops at the largest number just as adding all of them
does. -/
theorem toNat_foldl_saturatingAdd (values : List UInt64) (start : UInt64) :
    (values.foldl saturatingAdd start).toNat =
      min (start.toNat + (values.map UInt64.toNat).sum) maxUInt64.toNat := by
  induction values generalizing start with
  | nil =>
    have : start.toNat ≤ maxUInt64.toNat := Nat.le_of_lt_succ start.toNat_lt
    rw [List.foldl_nil, List.map_nil, List.sum_nil, Nat.add_zero, min_eq_left this]
  | cons value values ih =>
    rw [List.foldl_cons, ih, toNat_saturatingAdd, List.map_cons, List.sum_cons]
    omega

namespace TriggerSpec

variable {rules : TriggerSpec} {eventTime : Int} {data : UInt64}

/-- What the triggers of one trigger data add up to when they are counted one after the other. -/
def runningTotal (rules : TriggerSpec) (eventTime : Int) (data : UInt64)
    (triggers : List AttributedTrigger) : UInt64 :=
  ((triggers.filter fun t =>
    t.data == data && (rules.windowEnd? eventTime t).isSome).map
      rules.operator.contribution).foldl saturatingAdd 0

theorem toNat_runningTotal (triggers : List AttributedTrigger) :
    (rules.runningTotal eventTime data triggers).toNat = rules.total eventTime data triggers := by
  unfold runningTotal total
  rw [toNat_foldl_saturatingAdd, cappedTotal_eq_min_sum, UInt64.toNat_zero, Nat.zero_add]

theorem total_le_of_isPrefix {front triggers : List AttributedTrigger} (h : front <+: triggers) :
    rules.total eventTime data front ≤ rules.total eventTime data triggers := by
  obtain ⟨rest, rfl⟩ := h
  exact rules.total_le_total_append eventTime data front rest

/-! ## Buckets -/

/-- The bucket at each place reaches from the threshold there to the next one. -/
theorem getElem?_bucketsFrom (thresholds : List UInt64) (positive : 0 ∉ thresholds) (i : Nat) :
    (bucketsFrom thresholds)[i]? =
      thresholds[i]?.map fun first => ⟨first, (thresholds[i + 1]?).elim maxUInt64 (· - 1)⟩ := by
  fun_induction bucketsFrom thresholds generalizing i with
  | case1 => rfl
  | case2 first => cases i <;> rfl
  | case3 first next rest ih =>
    rw [List.mem_cons, not_or] at positive
    cases i with
    | zero =>
      have : next ≠ 0 := fun zero => positive.2 (zero ▸ List.mem_cons_self)
      simp [this]
    | succ i => exact ih positive.2 i

theorem getElem?_summaryBuckets (valid : rules.validate = .ok ()) (maxReports : UInt32) (i : Nat) :
    (rules.summaryBuckets maxReports)[i]? =
      (rules.thresholds maxReports)[i]?.map fun first =>
        ⟨first, ((rules.thresholds maxReports)[i + 1]?).elim maxUInt64 (· - 1)⟩ :=
  getElem?_bucketsFrom _ (fun zero => absurd (threshold_pos valid zero) (by decide)) i

theorem summaryBuckets_ascending (valid : rules.validate = .ok ()) (maxReports : UInt32) :
    (rules.summaryBuckets maxReports).Pairwise fun a b => a.first.toNat < b.first.toNat := by
  have ascending :=
    rules.map_first_summaryBuckets maxReports ▸ thresholds_ascending valid maxReports
  exact (List.pairwise_map.1 ascending).imp UInt64.lt_iff_toNat_lt.1

end TriggerSpec

/-- Of values in ascending order, those up to `mid` come before those above it. -/
theorem filter_append_filter_of_ascending {α : Type} {f : α → Nat} {l : List α}
    (ascending : l.Pairwise fun a b => f a < f b) {low mid high : Nat} (le : low ≤ mid)
    (le' : mid ≤ high) :
    l.filter (fun a => decide (low < f a ∧ f a ≤ mid)) ++
        l.filter (fun a => decide (mid < f a ∧ f a ≤ high)) =
      l.filter fun a => decide (low < f a ∧ f a ≤ high) := by
  induction l with
  | nil => rfl
  | cons a rest ih =>
    obtain ⟨first, ascending⟩ := List.pairwise_cons.1 ascending
    by_cases early : f a ≤ mid
    · rw [List.filter_cons, List.filter_cons_of_neg (by simp; omega), List.filter_cons]
      have same : decide (low < f a ∧ f a ≤ mid) = decide (low < f a ∧ f a ≤ high) := by
        rw [decide_eq_decide]
        omega
      rw [same, ← ih ascending]
      split_ifs <;> rfl
    · have none_early : rest.filter (fun a => decide (low < f a ∧ f a ≤ mid)) = [] := by
        rw [List.filter_eq_nil_iff]
        intro b hb
        have := first b hb
        simp
        omega
      rw [List.filter_cons_of_neg (by simp; omega), none_early, List.nil_append, List.filter_cons,
        List.filter_cons, ← ih ascending, none_early, List.nil_append]
      have same : decide (mid < f a ∧ f a ≤ high) = decide (low < f a ∧ f a ≤ high) := by
        rw [decide_eq_decide]
        omega
      rw [same]

/-! ## Credits of one trigger data -/

namespace FlexibleConfig

variable {config : FlexibleConfig} {rules : TriggerSpec} {eventTime : Int} {data : UInt64}
  {above rest : List AttributedTrigger}

/-- The buckets credited to one trigger, as far as its data is `data`, are those between the total
before it and the total with it. -/
theorem map_bucket_creditsFor (configured : config.triggerSpecFor? data = some rules)
    (t : AttributedTrigger) :
    ((config.creditsFor eventTime above t).filter (·.trigger.data == data)).map (·.bucket) =
      (rules.summaryBuckets config.maxReports).filter fun bucket =>
        decide (rules.total eventTime data above < bucket.first.toNat ∧
          bucket.first.toNat ≤ rules.total eventTime data (above ++ [t])) := by
  by_cases counted : t.data ≠ data ∨ rules.windowEnd? eventTime t = none
  · have right : ((rules.summaryBuckets config.maxReports).filter fun bucket =>
        decide (rules.total eventTime data above < bucket.first.toNat ∧
          bucket.first.toNat ≤ rules.total eventTime data (above ++ [t]))) = [] := by
      rw [TriggerSpec.total_append_of_not_counted above counted, List.filter_eq_nil_iff]
      intro bucket _
      simp
    have left : (config.creditsFor eventTime above t).filter (·.trigger.data == data) = [] := by
      rw [List.filter_eq_nil_iff]
      intro c hc same
      obtain ⟨rfl, hr, hw, -⟩ := of_mem_creditsFor hc
      have same := beq_iff_eq.1 same
      rw [same, configured] at hr
      rcases counted with other | outside
      · exact other same
      · rw [Option.some.inj hr, hw] at outside
        cases outside
    rw [left, right, List.map_nil]
  · rw [not_or, not_ne_iff] at counted
    obtain ⟨rfl, inside⟩ := counted
    obtain ⟨windowEnd, hw⟩ := Option.ne_none_iff_exists'.1 inside
    unfold creditsFor
    simp only [configured, hw]
    rw [List.filter_eq_self.2, List.map_map]
    · exact List.map_id _
    · intro c hc
      obtain ⟨bucket, -, rfl⟩ := List.mem_map.1 hc
      exact beq_self_eq_true _

/-- The buckets credited to ranked triggers follow one another. -/
theorem map_bucket_creditsFrom (valid : config.validate = .ok ())
    (configured : config.triggerSpecFor? data = some rules) (eventTime : Int)
    (above rest : List AttributedTrigger) :
    ((config.creditsFrom eventTime above rest).filter (·.trigger.data == data)).map (·.bucket) =
      (rules.summaryBuckets config.maxReports).filter fun bucket =>
        decide (rules.total eventTime data above < bucket.first.toNat ∧
          bucket.first.toNat ≤ rules.total eventTime data (above ++ rest)) := by
  have ascending := TriggerSpec.summaryBuckets_ascending (triggerSpecFor?_valid valid configured)
    config.maxReports
  induction rest generalizing above with
  | nil =>
    symm
    rw [List.append_nil, creditsFrom, List.filter_nil, List.map_nil, List.filter_eq_nil_iff]
    intro bucket _
    simp
  | cons t rest ih =>
    have grows := rules.total_le_total_append eventTime data above [t]
    have grows' := rules.total_le_total_append eventTime data (above ++ [t]) rest
    rw [creditsFrom, List.filter_append, List.map_append, map_bucket_creditsFor configured, ih,
      filter_append_filter_of_ascending ascending grows grows', List.append_assoc,
      List.singleton_append]

/-- A credit goes to one of the ranked triggers, which comes after those above it. -/
theorem exists_split_of_mem_creditsFrom {c : Credit}
    (h : c ∈ config.creditsFrom eventTime above rest) :
    ∃ before after, rest = before ++ c.trigger :: after ∧
      c ∈ config.creditsFor eventTime (above ++ before) c.trigger := by
  induction rest generalizing above with
  | nil => cases h
  | cons t rest ih =>
    rcases List.mem_append.1 h with first | later
    · obtain ⟨same, -⟩ := of_mem_creditsFor first
      refine ⟨[], rest, by rw [same, List.nil_append], ?_⟩
      rwa [List.append_nil, same]
    · obtain ⟨before, after, rfl, mem⟩ := ih later
      refine ⟨t :: before, after, rfl, ?_⟩
      rwa [List.append_assoc, List.singleton_append] at mem

end FlexibleConfig

/-! ## Reports of one trigger data -/

/-- Among ranked triggers, `t` is the first with which the total of a trigger data reaches a
threshold. -/
def TriggerSpec.FirstReaches (rules : TriggerSpec) (eventTime : Int) (data : UInt64)
    (ranked : List AttributedTrigger) (threshold : UInt64) (t : AttributedTrigger) : Prop :=
  ∃ above below, ranked = above ++ t :: below ∧ t.data = data ∧
    (rules.windowEnd? eventTime t).isSome = true ∧
      (∀ front, front <+: above → rules.runningTotal eventTime data front < threshold) ∧
        threshold ≤ rules.runningTotal eventTime data (above ++ [t])

namespace ReportSpec

variable {spec : ReportSpec} {source : Source} {ctx : ReportContext} {rules : TriggerSpec}
  {data : UInt64}

/-- The desired reports for one trigger data. -/
def desiredFor (spec : ReportSpec) (source : Source) (ctx : ReportContext) (data : UInt64) :
    List EventReport :=
  (spec.desired source ctx).filter (·.credited.data == data)

theorem desiredFor_eq_map (spec : ReportSpec) (source : Source) (ctx : ReportContext)
    (data : UInt64) :
    spec.desiredFor source ctx data =
      ((spec.credits source.eventTime).filter (·.trigger.data == data)).map
        (Credit.report spec source ctx) := by
  unfold desiredFor
  rw [desired_eq_map, List.filter_map]
  rfl

/-- The reports of a trigger data are for its buckets up to its total. -/
theorem map_bucket_desiredFor (configured : spec.config.triggerSpecFor? data = some rules)
    (source : Source) (ctx : ReportContext) :
    (spec.desiredFor source ctx data).map (·.bucket) =
      ((rules.summaryBuckets spec.config.maxReports).filter fun bucket =>
        decide (bucket.first.toNat ≤ spec.summaryValue source.eventTime data)).map some := by
  have credited := FlexibleConfig.map_bucket_creditsFrom spec.valid configured source.eventTime []
    (rankTriggers spec.history)
  rw [List.nil_append, TriggerSpec.total_perm (rankTriggers_perm spec.history),
    ← summaryValue_of_some configured] at credited
  have positive : ∀ bucket ∈ rules.summaryBuckets spec.config.maxReports,
      rules.total source.eventTime data [] < bucket.first.toNat := by
    intro bucket hb
    have mem := List.mem_map_of_mem (f := SummaryBucket.first) hb
    rw [TriggerSpec.map_first_summaryBuckets] at mem
    exact TriggerSpec.threshold_pos (FlexibleConfig.triggerSpecFor?_valid spec.valid configured) mem
  calc (spec.desiredFor source ctx data).map (·.bucket)
      = (((spec.credits source.eventTime).filter (·.trigger.data == data)).map (·.bucket)).map
          some := by
        rw [desiredFor_eq_map, List.map_map, List.map_map]
        rfl
    _ = _ := by
        rw [credits, credited]
        congr 1
        refine List.filter_congr fun bucket hb => ?_
        rw [decide_eq_decide]
        exact and_iff_right (positive bucket hb)

theorem map_first_desiredFor (configured : spec.config.triggerSpecFor? data = some rules)
    (source : Source) (ctx : ReportContext) :
    (spec.desiredFor source ctx data).map (fun r => r.bucket.map (·.first)) =
      ((rules.thresholds spec.config.maxReports).filter fun threshold =>
        decide (threshold.toNat ≤ spec.summaryValue source.eventTime data)).map some := by
  have buckets := congrArg (List.map (Option.map SummaryBucket.first))
    (map_bucket_desiredFor configured source ctx)
  rw [List.map_map, List.map_map] at buckets
  rw [← rules.map_first_summaryBuckets, List.filter_map, List.map_map]
  exact buckets

/-- There are as many reports of a trigger data as thresholds that its total has reached. -/
theorem length_desiredFor (configured : spec.config.triggerSpecFor? data = some rules) :
    (spec.desiredFor source ctx data).length =
      crossedCount (rules.thresholds spec.config.maxReports)
        (spec.summaryValue source.eventTime data) := by
  have firsts := congrArg List.length (map_first_desiredFor configured source ctx)
  rw [List.length_map, List.length_map] at firsts
  rw [firsts, crossedCount, List.countP_eq_length_filter]

/-- Each threshold that the total has reached has one report, and no other has any. -/
theorem countP_desiredFor (configured : spec.config.triggerSpecFor? data = some rules)
    (threshold : UInt64) :
    (spec.desiredFor source ctx data).countP (fun r => r.bucket.map (·.first) == some threshold) =
      if threshold ∈ rules.thresholds spec.config.maxReports ∧
        threshold.toNat ≤ spec.summaryValue source.eventTime data then 1 else 0 := by
  have valid := FlexibleConfig.triggerSpecFor?_valid spec.valid configured
  have distinct := (TriggerSpec.nodup_thresholds valid spec.config.maxReports).filter
    fun threshold => decide (threshold.toNat ≤ spec.summaryValue source.eventTime data)
  calc (spec.desiredFor source ctx data).countP
        (fun r => r.bucket.map (·.first) == some threshold)
      = ((spec.desiredFor source ctx data).map fun r => r.bucket.map (·.first)).count
          (some threshold) := by
        rw [List.count, List.countP_map]
        rfl
    _ = _ := by
        rw [map_first_desiredFor configured,
          List.count_map_of_injective _ _ (Option.some_injective _), distinct.count]
        simp only [List.mem_filter, decide_eq_true_eq]

/-- A report of a trigger data is for a bucket of its rules and credits the first trigger with which
the total reaches that bucket. -/
theorem of_mem_desiredFor (configured : spec.config.triggerSpecFor? data = some rules)
    {r : EventReport} (h : r ∈ spec.desiredFor source ctx data) :
    ∃ bucket ∈ rules.summaryBuckets spec.config.maxReports, r.bucket = some bucket ∧
      rules.FirstReaches source.eventTime data (rankTriggers spec.history) bucket.first
        r.credited := by
  rw [desiredFor_eq_map] at h
  obtain ⟨c, hc, rfl⟩ := List.mem_map.1 h
  obtain ⟨mem, same⟩ := List.mem_filter.1 hc
  have same : c.trigger.data = data := beq_iff_eq.1 same
  obtain ⟨above, below, ranked, mem⟩ := FlexibleConfig.exists_split_of_mem_creditsFrom mem
  rw [List.nil_append] at mem
  obtain ⟨-, hr, hw, hb, before, reached⟩ := FlexibleConfig.of_mem_creditsFor mem
  rw [same] at hr before reached
  obtain rfl : c.rules = rules := Option.some.inj (hr.symm.trans configured)
  refine ⟨c.bucket, hb, rfl, above, below, ranked, same,
    Option.isSome_iff_exists.2 ⟨_, hw⟩, ?_, ?_⟩
  · intro front early
    rw [UInt64.lt_iff_toNat_lt, TriggerSpec.toNat_runningTotal]
    exact (TriggerSpec.total_le_of_isPrefix early).trans_lt before
  · rw [UInt64.le_iff_toNat_le, TriggerSpec.toNat_runningTotal]
    exact reached

/-- The two ways of counting thresholds agree. A total adds up the triggers one after the other in
the order in which they arrived. Each threshold up to it has one report, whose bucket ends where the
next one begins, and which credits the first trigger in rank order with which the total, added up in
that order, reaches the threshold. -/
theorem desired_reports_of_data (configured : spec.config.triggerSpecFor? data = some rules)
    (source : Source) (ctx : ReportContext) :
    let thresholds := rules.thresholds spec.config.maxReports
    let total := spec.summaryValue source.eventTime data
    let reports := spec.desiredFor source ctx data
    total = (rules.runningTotal source.eventTime data spec.history).toNat ∧
      (∀ threshold, reports.countP (fun r => r.bucket.map (·.first) == some threshold) =
        if threshold ∈ thresholds ∧ threshold.toNat ≤ total then 1 else 0) ∧
      reports.length = crossedCount thresholds total ∧
      (∃ entries : List (AttributedTrigger × Nat), entries.Perm spec.history.zipIdx ∧
        entries.Pairwise Outranks ∧ entries.map Prod.fst = rankTriggers spec.history) ∧
      ∀ r ∈ reports, ∃ i first, thresholds[i]? = some first ∧
        r.bucket = some ⟨first, (thresholds[i + 1]?).elim maxUInt64 (· - 1)⟩ ∧
          rules.FirstReaches source.eventTime data (rankTriggers spec.history) first
            r.credited := by
  intro thresholds total reports
  refine ⟨?_, countP_desiredFor configured, length_desiredFor configured, ?_, ?_⟩
  · rw [TriggerSpec.toNat_runningTotal]
    exact summaryValue_of_some configured
  · exact ⟨rankEntries spec.history, rankEntries_perm _, pairwise_rankEntries _,
      map_fst_rankEntries _⟩
  · intro r hr
    obtain ⟨bucket, hb, eq, first⟩ := of_mem_desiredFor configured hr
    obtain ⟨i, hi⟩ := List.mem_iff_getElem?.1 hb
    have valid := FlexibleConfig.triggerSpecFor?_valid spec.valid configured
    rw [TriggerSpec.getElem?_summaryBuckets valid] at hi
    obtain ⟨threshold, at_i, rfl⟩ := Option.map_eq_some_iff.1 hi
    exact ⟨i, threshold, at_i, eq, first⟩

/-- Rules that add up the values of the triggers with data 1, with a report at a total of five and
one at the largest number. -/
def sampleSumRules : TriggerSpec := ⟨[1], ⟨0, [Time.days 2]⟩, .valueSum, [5, maxUInt64]⟩

/-- A history whose total stops at the largest number. The first trigger reaches both thresholds by
itself, but the second one ranks before it. -/
def sampleSum : ReportSpec :=
  ⟨⟨[sampleSumRules], 2, none⟩, rfl,
    [{ Sample.attributed "trigger1" 1 1 1 with value := maxUInt64 },
      { Sample.attributed "trigger2" 2 1 2 with value := 5 }]⟩

/-- What the reports depend on when the second trigger of the sample history is credited. -/
def sampleSumContext : ReportContext := Sample.onTime (Sample.attributed "trigger2" 2 1 2)

/-- The smaller threshold goes to the trigger that ranks first, and the larger one to the other. -/
theorem desired_reports_of_data_sample :
    sampleSum.config.triggerSpecFor? 1 = some sampleSumRules ∧
      sampleSum.summaryValue Sample.source.eventTime 1 = maxUInt64.toNat ∧
      (sampleSum.desiredFor Sample.source sampleSumContext 1).length = 2 ∧
      (sampleSum.desiredFor Sample.source sampleSumContext 1).map (·.bucket) =
        [some ⟨5, maxUInt64 - 1⟩, some ⟨maxUInt64, maxUInt64⟩] ∧
      (sampleSum.desiredFor Sample.source sampleSumContext 1).map (·.credited.triggerId) =
        ["trigger2", "trigger1"] := by
  have configured : sampleSum.config.triggerSpecFor? 1 = some sampleSumRules := by cbv
  obtain ⟨total, -, count, -, -⟩ := desired_reports_of_data configured Sample.source
    sampleSumContext
  exact ⟨configured, total.trans (by cbv), count.trans (by cbv), by cbv, by cbv⟩

end ReportSpec

end AttributionReporting
