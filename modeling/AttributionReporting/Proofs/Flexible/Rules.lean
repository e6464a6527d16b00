import AttributionReporting.Flexible.Spec
import Mathlib.Data.List.Nodup
import Mathlib.Data.List.Pairwise
import Mathlib.Order.Lattice

/-!
# What valid rules promise

A configuration without a fault tells its trigger data apart: no trigger data is configured twice
(`nodup_triggerData`), so each belongs to the rules of one group (`triggerSpecFor?_eq_some_iff`).
The totals at which a group reports are ascending (`thresholds_ascending`), and every bucket starts
at one of them (`map_first_summaryBuckets`).
-/

namespace AttributionReporting

/-! ## Buckets -/

theorem map_first_bucketsFrom (thresholds : List UInt64) :
    (bucketsFrom thresholds).map (·.first) = thresholds := by
  fun_induction bucketsFrom thresholds with
  | case1 => rfl
  | case2 first => rfl
  | case3 first next rest ih => rw [List.map_cons, ih]

namespace TriggerSpec

theorem map_first_summaryBuckets (rules : TriggerSpec) (maxReports : UInt32) :
    (rules.summaryBuckets maxReports).map (·.first) = rules.thresholds maxReports :=
  map_first_bucketsFrom _

/-- The rules of a group have no fault exactly when each of the three checks passes. -/
theorem validate_eq_ok_iff (rules : TriggerSpec) :
    rules.validate = .ok () ↔
      (rules.windows.ends ≠ [] ∧ rules.windows.ends.length ≤ maxWindows) ∧
        rules.windows.wellOrdered = true ∧
          ascending rules.buckets = true ∧ rules.buckets.head? ≠ some 0 := by
  unfold validate
  split_ifs with count order buckets
  · simp only [List.isEmpty_iff] at count
    simp only [false_iff]
    rintro ⟨⟨nonempty, le⟩, -⟩
    rcases count with empty | lt
    · exact nonempty empty
    · omega
  · simp only [Bool.not_eq_true'] at order
    simp [order]
  · simp only [Bool.not_eq_true'] at buckets
    simp only [false_iff]
    rintro ⟨-, -, asc, head⟩
    rcases buckets with notAsc | zero
    · rw [asc] at notAsc
      cases notAsc
    · exact head zero
  · simp only [List.isEmpty_iff, not_or, not_lt] at count
    simp only [Bool.not_eq_true', Bool.not_eq_false] at order
    simp only [Bool.not_eq_true', not_or, Bool.not_eq_false] at buckets
    exact iff_of_true rfl ⟨⟨count.1, count.2⟩, order, buckets⟩

/-- The totals at which a group without a fault reports are ascending. -/
theorem thresholds_ascending {rules : TriggerSpec} (valid : rules.validate = .ok ())
    (maxReports : UInt32) :
    (rules.thresholds maxReports).Pairwise (· < ·) := by
  obtain ⟨-, -, buckets, -⟩ := (validate_eq_ok_iff rules).1 valid
  unfold thresholds
  split_ifs with default
  · rw [List.pairwise_map]
    refine List.pairwise_lt_range.imp_of_mem fun {i j} _ hj lt => ?_
    have bound := List.mem_range.1 hj
    have := maxReports.toNat_lt
    rw [UInt64.lt_iff_toNat_lt, UInt64.toNat_ofNat_of_lt' (by simp only [UInt64.size]; omega),
      UInt64.toNat_ofNat_of_lt' (by simp only [UInt64.size]; omega)]
    omega
  · exact (ascending_iff_pairwise UInt64.lt_trans).1 buckets

theorem nodup_thresholds {rules : TriggerSpec} (valid : rules.validate = .ok ())
    (maxReports : UInt32) : (rules.thresholds maxReports).Nodup :=
  (thresholds_ascending valid maxReports).imp UInt64.ne_of_lt

/-- No report is due before the total has grown. -/
theorem threshold_pos {rules : TriggerSpec} (valid : rules.validate = .ok ())
    {maxReports : UInt32} {threshold : UInt64} (h : threshold ∈ rules.thresholds maxReports) :
    0 < threshold.toNat := by
  obtain ⟨-, -, -, head⟩ := (validate_eq_ok_iff rules).1 valid
  have asc := thresholds_ascending valid maxReports
  unfold thresholds at h asc
  split_ifs at h asc with default
  · obtain ⟨i, hi, rfl⟩ := List.mem_map.1 h
    have bound := List.mem_range.1 hi
    have := maxReports.toNat_lt
    rw [UInt64.toNat_ofNat_of_lt' (by simp only [UInt64.size]; omega)]
    omega
  · rcases buckets : rules.buckets with _ | ⟨first, rest⟩
    · rw [buckets] at h
      cases h
    · rw [buckets] at h head asc
      have first_pos : 0 < first.toNat := by
        rw [Nat.pos_iff_ne_zero]
        intro zero
        exact head (congrArg some (UInt64.toNat_inj.1 zero))
      rcases List.mem_cons.1 h with rfl | later
      · exact first_pos
      · have := UInt64.lt_iff_toNat_lt.1 ((List.pairwise_cons.1 asc).1 threshold later)
        omega

end TriggerSpec

/-! ## Configurations -/

namespace FlexibleConfig

/-- All trigger data of a configuration, in order. -/
def triggerData (config : FlexibleConfig) : List UInt64 :=
  config.triggerSpecs.flatMap (·.triggerData)

theorem foldlM_addDistinct {l seen all : List UInt64} (h : l.foldlM addDistinct seen = .ok all) :
    all = seen ++ l ∧ (seen.Nodup → all.Nodup) := by
  induction l generalizing seen with
  | nil =>
    cases h
    exact ⟨(List.append_nil _).symm, id⟩
  | cons data l ih =>
    rw [List.foldlM_cons] at h
    by_cases repeated : seen.contains data = true
    · rw [addDistinct, if_pos repeated] at h
      cases h
    · rw [addDistinct, if_neg repeated] at h
      obtain ⟨eq, nodup⟩ := ih h
      refine ⟨by rw [eq, List.append_assoc, List.singleton_append], fun distinct => nodup ?_⟩
      rw [List.nodup_append]
      refine ⟨distinct, List.pairwise_singleton _ data, fun a ha b hb eq => repeated ?_⟩
      rw [List.mem_singleton.1 hb] at eq
      rw [← eq]
      exact List.contains_iff_mem.2 ha

theorem distinctTriggerData_ok {specs : List TriggerSpec} {seen all : List UInt64}
    (h : distinctTriggerData seen specs = .ok all) :
    all = seen ++ specs.flatMap (·.triggerData) ∧ (seen.Nodup → all.Nodup) ∧
      ∀ rules ∈ specs, rules.validate = .ok () := by
  induction specs generalizing seen with
  | nil =>
    cases h
    exact ⟨(List.append_nil _).symm, id, by simp⟩
  | cons rules specs ih =>
    unfold distinctTriggerData at h
    cases first : rules.validate with
    | error fault =>
      rw [first] at h
      cases h
    | ok _ =>
      cases added : rules.triggerData.foldlM addDistinct seen with
      | error fault =>
        rw [first, added] at h
        cases h
      | ok more =>
        rw [first, added] at h
        obtain ⟨eq, nodup, valid⟩ := ih h
        obtain ⟨moreEq, moreNodup⟩ := foldlM_addDistinct added
        refine ⟨?_, fun distinct => nodup (moreNodup distinct), ?_⟩
        · rw [eq, moreEq, List.flatMap_cons, List.append_assoc]
        · exact List.forall_mem_cons.2 ⟨first, valid⟩

variable {config : FlexibleConfig}

theorem exists_distinct_of_validate (h : config.validate = .ok ()) :
    distinctTriggerData [] config.triggerSpecs = .ok config.triggerData := by
  unfold validate at h
  split_ifs at h
  cases distinct : distinctTriggerData [] config.triggerSpecs with
  | error fault =>
    rw [distinct] at h
    cases h
  | ok data => rw [(distinctTriggerData_ok distinct).1, List.nil_append, triggerData]

/-- No trigger data is configured twice. -/
theorem nodup_triggerData (h : config.validate = .ok ()) : config.triggerData.Nodup :=
  (distinctTriggerData_ok (exists_distinct_of_validate h)).2.1 List.nodup_nil

theorem validate_of_mem (h : config.validate = .ok ()) {rules : TriggerSpec}
    (hr : rules ∈ config.triggerSpecs) : rules.validate = .ok () :=
  (distinctTriggerData_ok (exists_distinct_of_validate h)).2.2 rules hr

theorem mem_of_triggerSpecFor?_eq_some {data : UInt64} {rules : TriggerSpec}
    (h : config.triggerSpecFor? data = some rules) :
    rules ∈ config.triggerSpecs ∧ data ∈ rules.triggerData := by
  unfold triggerSpecFor? at h
  have holds := List.find?_some h
  exact ⟨List.mem_of_find?_eq_some h, List.contains_iff_mem.1 holds⟩

theorem triggerSpecFor?_valid (h : config.validate = .ok ()) {data : UInt64} {rules : TriggerSpec}
    (hr : config.triggerSpecFor? data = some rules) : rules.validate = .ok () :=
  validate_of_mem h (mem_of_triggerSpecFor?_eq_some hr).1

theorem exists_triggerSpecFor?_iff {data : UInt64} :
    (∃ rules, config.triggerSpecFor? data = some rules) ↔ data ∈ config.triggerData := by
  rw [← Option.isSome_iff_exists, triggerSpecFor?, List.find?_isSome, triggerData,
    List.mem_flatMap]
  simp only [List.contains_iff_mem]

/-- The rules of a trigger data are those of the one group that lists it. -/
theorem triggerSpecFor?_eq_some_iff (h : config.validate = .ok ()) {data : UInt64}
    {rules : TriggerSpec} :
    config.triggerSpecFor? data = some rules ↔
      rules ∈ config.triggerSpecs ∧ data ∈ rules.triggerData := by
  refine ⟨mem_of_triggerSpecFor?_eq_some, fun ⟨mem, listed⟩ => ?_⟩
  obtain ⟨found, eq⟩ := exists_triggerSpecFor?_iff.2 (List.mem_flatMap.2 ⟨rules, mem, listed⟩)
  obtain ⟨mem', listed'⟩ := mem_of_triggerSpecFor?_eq_some eq
  have apart := (List.nodup_flatMap.1 (nodup_triggerData h)).2
  have : Std.Symm (Function.onFun List.Disjoint TriggerSpec.triggerData) :=
    ⟨fun _ _ => List.disjoint_symm⟩
  rw [eq, Option.some.injEq]
  by_contra other
  exact apart.forall mem' mem other listed' listed

end FlexibleConfig

end AttributionReporting
