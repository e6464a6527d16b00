import AttributionReporting.Proofs.Cells
import AttributionReporting.Proofs.Flexible.Windows
import AttributionReporting.Proofs.Flexible.Rules
import AttributionReporting.Time

/-!
# Valid rules divide what they are about

Rules without a fault sort every trigger data they list into one group, every offset from the start
of a group's windows to their last end into one window, and every total from the first threshold on
into one bucket (`validate_partitions`). The checks behind this look at neighbours only: windows and
buckets are cells between ascending bounds, the bounds of the buckets being the thresholds and the
number after the largest one.
-/

namespace AttributionReporting

/-! ## Windows -/

namespace ReportWindows

variable {w : ReportWindows} {offset windowEnd : Int}

/-- The windows in order: where each begins and before which offset it ends. -/
def windows (w : ReportWindows) : List (Int × Int) := cells (w.start :: w.ends)

theorem wellOrdered_iff :
    w.wellOrdered = true ↔ 0 ≤ w.start ∧ (w.start :: w.ends).Pairwise (· < ·) := by
  rw [wellOrdered, Bool.and_eq_true, decide_eq_true_iff, ascending_iff_pairwise Int.lt_trans]

/-- The end that is looked up is that of the window which holds the offset. -/
theorem endFor?_eq_some_iff (ascending : (w.start :: w.ends).Pairwise (· < ·)) :
    w.endFor? offset = some windowEnd ↔
      ∃ first, (first, windowEnd) ∈ w.windows ∧ first ≤ offset ∧ offset < windowEnd := by
  unfold endFor?
  split_ifs with early
  · refine iff_of_false nofun ?_
    rintro ⟨first, mem, begun, -⟩
    exact absurd ((le_of_mem_cells ascending mem).trans begun) early.not_ge
  · exact find?_eq_some_iff_mem_cells ascending (not_lt.1 early)

/-- The offsets that have an end are those from the start up to the last end. -/
theorem isSome_endFor?_iff (ascending : (w.start :: w.ends).Pairwise (· < ·)) :
    (w.endFor? offset).isSome = true ↔
      w.start ≤ offset ∧ offset < w.ends.getLastD w.start := by
  have held : (w.endFor? offset).isSome = true ↔
      0 < w.windows.countP (fun c => c.1 ≤ offset ∧ offset < c.2) := by
    rw [Option.isSome_iff_exists, List.countP_pos_iff]
    simp only [endFor?_eq_some_iff ascending, Prod.exists, decide_eq_true_eq]
    exact exists_comm
  rw [held, windows, countP_cells ascending]
  split_ifs with within
  · exact iff_of_true Nat.one_pos within
  · exact iff_of_false (lt_irrefl 0) within

/-- The offsets from the start up to the last end have an end, which is that of the one window that
holds them; no window holds another offset. -/
structure Partition (w : ReportWindows) : Prop where
  isSome_endFor? : ∀ offset, (w.endFor? offset).isSome = true ↔
    w.start ≤ offset ∧ ∃ last, w.ends.getLast? = some last ∧ offset < last
  endFor?_eq_some : ∀ offset windowEnd, w.endFor? offset = some windowEnd ↔
    ∃ first, (first, windowEnd) ∈ w.windows ∧ first ≤ offset ∧ offset < windowEnd
  countP_windows : ∀ offset, w.windows.countP (fun c => c.1 ≤ offset ∧ offset < c.2) =
    if (w.endFor? offset).isSome then 1 else 0

theorem partition_of_wellOrdered (nonempty : w.ends ≠ []) (ordered : w.wellOrdered = true) :
    w.Partition := by
  obtain ⟨-, ascending⟩ := wellOrdered_iff.1 ordered
  constructor
  · intro offset
    simp [isSome_endFor?_iff ascending, List.getLast?_eq_some_getLast nonempty]
  · exact fun _ _ => endFor?_eq_some_iff ascending
  · intro offset
    simp only [windows, countP_cells ascending, isSome_endFor?_iff ascending]

end ReportWindows

/-! ## Buckets -/

/-- No bucket is empty, each ends below the next one, and the totals from the first threshold on are
in one bucket each. -/
structure BucketPartition (thresholds : List UInt64) (buckets : List SummaryBucket) : Prop where
  first_le_last : ∀ b ∈ buckets, b.first ≤ b.last
  ascending : buckets.Pairwise fun b b' => b.last < b'.first
  countP_buckets : ∀ total, buckets.countP (fun b => b.first ≤ total ∧ total ≤ b.last) =
    if thresholds.head?.any (· ≤ total) then 1 else 0

variable {thresholds : List UInt64}

/-- The bounds between buckets: the thresholds, and the number above every total, which does not fit
in 64 bits. -/
def bucketBounds (thresholds : List UInt64) : List Nat :=
  thresholds.map UInt64.toNat ++ [UInt64.size]

theorem pairwise_bucketBounds (ascending : thresholds.Pairwise (· < ·)) :
    (bucketBounds thresholds).Pairwise (· < ·) := by
  refine List.pairwise_append.2 ⟨?_, List.pairwise_singleton _ _, ?_⟩
  · exact List.pairwise_map.2 (ascending.imp UInt64.lt_iff_toNat_lt.1)
  · rintro _ mem _ last
    obtain ⟨threshold, -, rfl⟩ := List.mem_map.1 mem
    rw [List.mem_singleton.1 last]
    exact threshold.toNat_lt_size

theorem toNat_sub_one_add_one {n : UInt64} (h : n ≠ 0) : (n - 1).toNat + 1 = n.toNat := by
  have pos : 1 ≤ n := by
    rw [UInt64.le_iff_toNat_le]
    exact Nat.pos_of_ne_zero fun zero => h (UInt64.toNat_inj.1 zero)
  rw [UInt64.toNat_sub_of_le _ _ pos]
  exact Nat.sub_add_cancel (UInt64.le_iff_toNat_le.1 pos)

/-- Buckets are the cells between these bounds. -/
theorem map_cell_bucketsFrom (positive : 0 ∉ thresholds) :
    (bucketsFrom thresholds).map (fun b => (b.first.toNat, b.last.toNat + 1)) =
      cells (bucketBounds thresholds) := by
  fun_induction bucketsFrom thresholds with
  | case1 => rfl
  | case2 first =>
    have last : maxUInt64.toNat + 1 = UInt64.size := by decide
    rw [List.map_singleton, last]
    rfl
  | case3 first next rest ih =>
    rw [List.mem_cons, not_or] at positive
    have above : next ≠ 0 := fun zero => positive.2 (zero ▸ List.mem_cons_self)
    rw [List.map_cons, ih positive.2, if_neg above, toNat_sub_one_add_one above]
    rfl

theorem bucketPartition_bucketsFrom (ascending : thresholds.Pairwise (· < ·))
    (positive : 0 ∉ thresholds) : BucketPartition thresholds (bucketsFrom thresholds) := by
  have bounds := pairwise_bucketBounds ascending
  have cell := map_cell_bucketsFrom positive
  constructor
  · intro b mem
    have mem : (b.first.toNat, b.last.toNat + 1) ∈ cells (bucketBounds thresholds) := by
      rw [← cell]
      exact List.mem_map_of_mem mem
    exact UInt64.le_iff_toNat_le.2 (Nat.lt_succ_iff.1 (lt_of_mem_cells bounds mem))
  · have apart := pairwise_cells bounds
    rw [← cell, List.pairwise_map] at apart
    exact apart.imp UInt64.lt_iff_toNat_lt.2
  · intro total
    cases thresholds with
    | nil => rfl
    | cons first rest =>
      have below : total.toNat < UInt64.size := total.toNat_lt_size
      have count := countP_cells (l := rest.map UInt64.toNat ++ [UInt64.size]) bounds total.toNat
      rw [List.getLastD_concat] at count
      change List.countP _ (cells (bucketBounds (first :: rest))) = _ at count
      rw [← cell, List.countP_map] at count
      simp only [Function.comp_def, below, and_true, Nat.lt_succ_iff,
        ← UInt64.le_iff_toNat_le] at count
      rw [count]
      simp

/-! ## Trigger data -/

/-- A member of some lists that have no member in common is in one of them. -/
theorem countP_contains_of_nodup {β : Type} {f : β → List UInt64} {l : List β}
    (distinct : (l.flatMap f).Nodup) (a : UInt64) :
    l.countP (fun b => (f b).contains a) = if a ∈ l.flatMap f then 1 else 0 := by
  induction l with
  | nil => rfl
  | cons b l ih =>
    rw [List.flatMap_cons, List.nodup_append'] at distinct
    obtain ⟨-, distinct, apart⟩ := distinct
    simp only [List.countP_cons, ih distinct, List.flatMap_cons, List.mem_append,
      List.contains_iff_mem]
    by_cases first : a ∈ f b
    · have later : a ∉ l.flatMap f := fun mem => apart first mem
      simp only [first, later, if_true, if_false, true_or]
    · simp only [first, if_false, Nat.add_zero, false_or]

namespace FlexibleConfig

variable {config : FlexibleConfig}

theorem length_triggerData (valid : config.validate = .ok ()) :
    config.triggerData ≠ [] ∧ config.triggerData.length ≤ maxTriggerData := by
  have distinct := exists_distinct_of_validate valid
  unfold validate at valid
  rw [distinct] at valid
  simp only [bind, Except.bind] at valid
  split_ifs at valid with many empty count
  · rw [not_or, List.isEmpty_iff] at count
    exact ⟨count.1, not_lt.1 count.2⟩

/-- Valid rules tell apart up to eight trigger data, each of which is in one group and has the rules
of that group. The windows of a group divide the offsets between its start and its last end, and its
buckets the totals from the first threshold on. -/
theorem validate_partitions (valid : config.validate = .ok ()) :
    (config.triggerData.Nodup ∧ config.triggerData ≠ [] ∧ config.triggerData.length ≤ 8) ∧
      (∀ data, config.triggerSpecs.countP (·.triggerData.contains data) =
        if data ∈ config.triggerData then 1 else 0) ∧
      (∀ data rules, config.triggerSpecFor? data = some rules ↔
        rules ∈ config.triggerSpecs ∧ data ∈ rules.triggerData) ∧
      ∀ rules ∈ config.triggerSpecs, rules.windows.Partition ∧
        BucketPartition (rules.thresholds config.maxReports)
          (rules.summaryBuckets config.maxReports) := by
  obtain ⟨some, few⟩ := length_triggerData valid
  have distinct := nodup_triggerData valid
  refine ⟨⟨distinct, some, few⟩, countP_contains_of_nodup distinct,
    fun _ _ => triggerSpecFor?_eq_some_iff valid, fun rules mem => ?_⟩
  have valid := validate_of_mem valid mem
  obtain ⟨⟨nonempty, -⟩, ordered, -⟩ := (TriggerSpec.validate_eq_ok_iff rules).1 valid
  refine ⟨ReportWindows.partition_of_wellOrdered nonempty ordered, ?_⟩
  refine bucketPartition_bucketsFrom (TriggerSpec.thresholds_ascending valid _) fun zero => ?_
  exact absurd (TriggerSpec.threshold_pos valid zero) (lt_irrefl 0)

/-- Rules with a pause before the first of three windows, and a report for every total. -/
def samplePausedRules : TriggerSpec :=
  ⟨[1, 2], ⟨Time.hours 1, [Time.days 1, Time.days 2, Time.days 5]⟩, .count, []⟩

/-- Rules with a report at a total of five and one at the largest total. -/
def sampleLargestRules : TriggerSpec := ⟨[7], ⟨0, [Time.days 2]⟩, .valueSum, [5, maxUInt64]⟩

/-- Both groups of rules, for up to two reports. -/
def sampleGroups : FlexibleConfig := ⟨[samplePausedRules, sampleLargestRules], 2, none⟩

/-- A window holds its beginning and not its end, and the last bucket may hold a single total. -/
theorem validate_partitions_sample :
    sampleGroups.validate = .ok () ∧
      sampleGroups.triggerSpecFor? 7 = some sampleLargestRules ∧
      samplePausedRules.windows.Partition ∧
      samplePausedRules.windows.endFor? (Time.days 1) = some (Time.days 2) ∧
      BucketPartition [1, 2] [⟨1, 1⟩, ⟨2, maxUInt64⟩] ∧
      BucketPartition [5, maxUInt64] [⟨5, maxUInt64 - 1⟩, ⟨maxUInt64, maxUInt64⟩] := by
  have valid : sampleGroups.validate = .ok () := by rfl
  obtain ⟨-, -, lookup, groups⟩ := validate_partitions valid
  have paused : samplePausedRules ∈ sampleGroups.triggerSpecs := by simp [sampleGroups]
  have largest : sampleLargestRules ∈ sampleGroups.triggerSpecs := by simp [sampleGroups]
  have windows := (groups _ paused).1
  refine ⟨valid, (lookup 7 _).2 ⟨largest, by decide⟩, windows, ?_, (groups _ paused).2,
    (groups _ largest).2⟩
  exact (windows.endFor?_eq_some _ _).2 ⟨Time.days 1, by decide, by decide, by decide⟩

end FlexibleConfig

end AttributionReporting
