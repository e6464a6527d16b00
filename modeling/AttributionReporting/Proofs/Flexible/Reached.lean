import AttributionReporting.Proofs.Flexible.Ranking
import Mathlib.Data.List.Perm.Subperm

/-!
# How many buckets a history reaches

`reachedCount` adds up, over all trigger data of a source, the thresholds that the totals have
reached. It is the number of credits (`length_credits`), and it grows with every further trigger
(`reachedCount_le_record`).
-/

namespace AttributionReporting

namespace ReportSpec

/-- The thresholds of a trigger data that the history reaches. -/
def reachedThresholds (spec : ReportSpec) (eventTime : Int) (data : UInt64) : List UInt64 :=
  match spec.config.triggerSpecFor? data with
  | some rules =>
    (rules.thresholds spec.config.maxReports).filter fun threshold =>
      decide (threshold.toNat ≤ spec.summaryValue eventTime data)
  | none => []

/-- The number of thresholds that a history reaches, over all trigger data. -/
def reachedCount (spec : ReportSpec) (eventTime : Int) : Nat :=
  (spec.config.triggerData.map fun data => (spec.reachedThresholds eventTime data).length).sum

variable {spec : ReportSpec} {eventTime : Int}

theorem mem_reachedThresholds_iff {data threshold : UInt64} :
    threshold ∈ spec.reachedThresholds eventTime data ↔
      spec.Reaches eventTime data threshold := by
  unfold reachedThresholds Reaches
  rcases spec.config.triggerSpecFor? data with _ | rules
  · simp
  · simp

theorem nodup_reachedThresholds (spec : ReportSpec) (eventTime : Int) (data : UInt64) :
    (spec.reachedThresholds eventTime data).Nodup := by
  unfold reachedThresholds
  split
  · next rules hr =>
    have distinct := TriggerSpec.nodup_thresholds
      (FlexibleConfig.triggerSpecFor?_valid spec.valid hr) spec.config.maxReports
    exact distinct.filter _
  · exact List.nodup_nil

/-- The buckets that a history reaches, by trigger data. -/
def reachedKeys (spec : ReportSpec) (eventTime : Int) : List (UInt64 × Option UInt64) :=
  spec.config.triggerData.flatMap fun data =>
    (spec.reachedThresholds eventTime data).map fun threshold => (data, some threshold)

theorem length_reachedKeys (spec : ReportSpec) (eventTime : Int) :
    (spec.reachedKeys eventTime).length = spec.reachedCount eventTime := by
  unfold reachedKeys reachedCount
  rw [List.length_flatMap]
  simp only [List.length_map]

theorem mem_reachedKeys_iff {key : UInt64 × Option UInt64} :
    key ∈ spec.reachedKeys eventTime ↔
      ∃ data threshold, key = (data, some threshold) ∧ spec.Reaches eventTime data threshold := by
  unfold reachedKeys
  simp only [List.mem_flatMap, List.mem_map, mem_reachedThresholds_iff]
  constructor
  · rintro ⟨data, -, threshold, reached, rfl⟩
    exact ⟨data, threshold, rfl, reached⟩
  · rintro ⟨data, threshold, rfl, reached⟩
    obtain ⟨rules, hr, -⟩ := id reached
    exact ⟨data, FlexibleConfig.exists_triggerSpecFor?_iff.1 ⟨rules, hr⟩, threshold, reached, rfl⟩

theorem nodup_reachedKeys (spec : ReportSpec) (eventTime : Int) :
    (spec.reachedKeys eventTime).Nodup := by
  unfold reachedKeys
  rw [List.nodup_flatMap]
  refine ⟨fun data _ => ?_, (FlexibleConfig.nodup_triggerData spec.valid).imp ?_⟩
  · refine List.Nodup.map (fun a b eq => ?_) (spec.nodup_reachedThresholds eventTime data)
    simpa using eq
  · intro a b ne key ha hb
    obtain ⟨_, -, rfl⟩ := List.mem_map.1 ha
    obtain ⟨_, -, eq⟩ := List.mem_map.1 hb
    exact ne (congrArg Prod.fst eq).symm

/-- There are as many credits as buckets reached. -/
theorem length_credits (spec : ReportSpec) (eventTime : Int) :
    (spec.credits eventTime).length = spec.reachedCount eventTime := by
  have keys : ((spec.credits eventTime).map Credit.key).length = (spec.credits eventTime).length :=
    List.length_map _
  rw [← length_reachedKeys, ← keys]
  refine List.Perm.length_eq ((List.perm_ext_iff_of_nodup (nodup_map_key_credits spec eventTime)
    (nodup_reachedKeys spec eventTime)).2 fun key => ?_)
  rw [mem_map_key_credits_iff, mem_reachedKeys_iff]

theorem reachedCount_le_record (spec : ReportSpec) (eventTime : Int) (t : AttributedTrigger) :
    spec.reachedCount eventTime ≤ (spec.record t).reachedCount eventTime := by
  rw [← length_reachedKeys, ← length_reachedKeys]
  refine (List.subperm_of_subset (nodup_reachedKeys spec eventTime) fun key hk => ?_).length_le
  obtain ⟨data, threshold, eq, reached⟩ := mem_reachedKeys_iff.1 hk
  exact mem_reachedKeys_iff.2 ⟨data, threshold, eq, reached.record t⟩

theorem not_reaches_of_history_nil (fresh : spec.history = []) {data threshold : UInt64} :
    ¬ spec.Reaches eventTime data threshold := by
  rintro ⟨rules, hr, mem, le⟩
  rw [summaryValue_of_some hr, fresh] at le
  have zero : rules.total eventTime data [] = 0 := rfl
  have := TriggerSpec.threshold_pos (FlexibleConfig.triggerSpecFor?_valid spec.valid hr) mem
  omega

end ReportSpec

end AttributionReporting
