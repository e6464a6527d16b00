import AttributionReporting.Batch
import AttributionReporting.Proofs.ReportId
import AttributionReporting.Proofs.StringMap
import AttributionReporting.Sample
import Mathlib

/-!
# Batches partition the reports

The name of a batch ends with a whole number after an underscore, and no underscore stands in the
number. So the name tells the destination, whatever underscores it has of its own, and the day, also
where 64 bits do not hold the start of the day (`batchKey_eq_iff`). The batch of a name holds the
reports of this name in the order in which they came (`get?_batches`), and all batches together hold
every report once (`batches_partition`).
-/

namespace AttributionReporting

/-! ## Names of batches -/

theorem underscore_notMem_toString (i : Int) : '_' ∉ (toString i).toList := by
  have digits (n : Nat) : '_' ∉ n.repr.toList := by
    rw [Nat.toList_repr]
    exact notMem_toDigits rfl n
  cases i with
  | ofNat n => exact digits n
  | negSucc n =>
    show '_' ∉ ("-" ++ (n + 1).repr).toList
    rw [String.toList_append, List.mem_append, not_or]
    exact ⟨by decide, digits (n + 1)⟩

/-- A batch is named by the destination and the day. -/
theorem batchKey_eq_iff {d d' : String} {t t' : Int} (ht : Time.Fits t) (ht' : Time.Fits t') :
    batchKey d t = batchKey d' t' ↔ d = d' ∧ Time.dayOf t = Time.dayOf t' := by
  rw [← Time.roundDownToDay_eq_iff ht ht']
  constructor
  · intro same
    have chars := congrArg String.toList same
    have underscore : "_".toList = ['_'] := rfl
    simp only [batchKey, String.toList_append, List.append_assoc, underscore,
      List.singleton_append] at chars
    obtain ⟨destinations, starts⟩ := append_separator_inj (underscore_notMem_toString _)
      (underscore_notMem_toString _) chars
    exact ⟨String.toList_inj.1 destinations, Int.repr_inj.1 (String.toList_inj.1 starts)⟩
  · rintro ⟨rfl, starts⟩
    rw [batchKey, batchKey, starts]

/-! ## Reports by name -/

/-- What a list holds under each of some different keys is what it holds under all of them. -/
theorem flatMap_filter_perm {α : Type} (key : α → String) {keys : List String} {l : List α}
    (distinct : keys.Nodup) (covered : ∀ a ∈ l, key a ∈ keys) :
    (keys.flatMap fun k => l.filter (key · == k)).Perm l := by
  induction keys generalizing l with
  | nil =>
    have none : l = [] := List.eq_nil_iff_forall_not_mem.2 fun a mem => by simpa using covered a mem
    rw [none]
    rfl
  | cons k keys ih =>
    obtain ⟨new, distinct⟩ := List.nodup_cons.1 distinct
    have rest : (keys.flatMap fun k' => l.filter (key · == k')) =
        keys.flatMap fun k' => (l.filter (!key · == k)).filter (key · == k') := by
      refine List.flatMap_congr fun k' mem => ?_
      rw [List.filter_filter]
      refine List.filter_congr fun a _ => ?_
      by_cases own : key a = k'
      · have other : k' ≠ k := fun eq => new (eq ▸ mem)
        simp [own, other]
      · simp [own]
    rw [List.flatMap_cons, rest]
    refine (List.Perm.append_left _ (ih distinct fun a mem => ?_)).trans
      (List.filter_append_perm _ l)
    obtain ⟨mem, other⟩ := List.mem_filter.1 mem
    refine (List.mem_cons.1 (covered a mem)).resolve_left fun own => ?_
    simp [own] at other

theorem batches_concat (reports : List AggregateReport) (r : AggregateReport) :
    batches (reports ++ [r]) =
      (batches reports).insert r.batchKey (((batches reports).get? r.batchKey).getD [] ++ [r]) := by
  simp [batches]

/-- The batch of a name holds the reports of this name, as they came; there is none without a
report. -/
theorem get?_batches (reports : List AggregateReport) (key : String) :
    ((batches reports).get? key).getD [] = reports.filter (·.batchKey == key) ∧
      (batches reports).get? key ≠ some [] := by
  induction reports using List.reverseRecOn with
  | nil => exact ⟨rfl, by simp [batches]⟩
  | append_singleton reports r ih =>
    obtain ⟨held, nonempty⟩ := ih
    rw [batches_concat, StringMap.get?_insert, List.filter_append, ← held]
    by_cases own : key = r.batchKey
    · subst own
      simp
    · simp [own, Ne.symm own, nonempty]

theorem get?_batches_eq_some_iff {reports : List AggregateReport} {key : String}
    {batch : List AggregateReport} :
    (batches reports).get? key = some batch ↔
      batch = reports.filter (·.batchKey == key) ∧ batch ≠ [] := by
  obtain ⟨held, nonempty⟩ := get?_batches reports key
  rw [← held]
  rcases found : (batches reports).get? key with _ | held
  · simp +contextual
  · simp only [Option.some.injEq, Option.getD_some]
    constructor
    · rintro rfl
      exact ⟨rfl, fun empty => nonempty (empty ▸ found)⟩
    · rintro ⟨rfl, -⟩
      rfl

theorem get?_batches_of_mem {reports : List AggregateReport} {r : AggregateReport}
    (mem : r ∈ reports) :
    (batches reports).get? r.batchKey = some (reports.filter (·.batchKey == r.batchKey)) := by
  have own : r ∈ reports.filter (·.batchKey == r.batchKey) := List.mem_filter.2 ⟨mem, by simp⟩
  exact get?_batches_eq_some_iff.2 ⟨rfl, List.ne_nil_of_mem own⟩

theorem flatMap_batches_perm (reports : List AggregateReport) :
    ((batches reports).entries.flatMap (·.2)).Perm reports := by
  have held : ((batches reports).entries.flatMap (·.2)) =
      ((batches reports).entries.map (·.1)).flatMap fun key =>
        reports.filter (·.batchKey == key) := by
    rw [List.flatMap_map]
    refine List.flatMap_congr fun e mem => ?_
    exact (get?_batches_eq_some_iff.1 (StringMap.get?_eq_some_iff.2 mem)).1
  rw [held]
  refine flatMap_filter_perm AggregateReport.batchKey (batches reports).ascending.nodup
    fun r mem => ?_
  exact List.mem_map.2 ⟨_, StringMap.get?_eq_some_iff.1 (get?_batches_of_mem mem), rfl⟩

/-- Together the batches hold every report once. The batch of a name, if there is one, is not empty
and holds the reports of this name in the order in which they came. When the reports are scheduled
for times that 64 bits hold, two of them are in one batch when they have the same destination and
fall in the same day. -/
theorem batches_partition (reports : List AggregateReport)
    (fits : ∀ r ∈ reports, Time.Fits r.scheduledReportTime) :
    ((batches reports).entries.flatMap (·.2)).Perm reports ∧
      (∀ key batch, (batches reports).get? key = some batch ↔
        batch = reports.filter (·.batchKey == key) ∧ batch ≠ []) ∧
      ∀ r r', (∃ key batch, (batches reports).get? key = some batch ∧ r ∈ batch ∧ r' ∈ batch) ↔
        r ∈ reports ∧ r' ∈ reports ∧ r.destination = r'.destination ∧
          r.scheduledReportTime.fdiv 86400000 = r'.scheduledReportTime.fdiv 86400000 := by
  refine ⟨flatMap_batches_perm reports, fun key batch => get?_batches_eq_some_iff, fun r r' => ?_⟩
  have days (t : Int) : t.fdiv 86400000 = Time.dayOf t := Int.fdiv_eq_ediv_of_nonneg t (by decide)
  rw [days, days]
  have named (mem : r ∈ reports) (mem' : r' ∈ reports) : r.batchKey = r'.batchKey ↔
      r.destination = r'.destination ∧
        Time.dayOf r.scheduledReportTime = Time.dayOf r'.scheduledReportTime :=
    batchKey_eq_iff (fits r mem) (fits r' mem')
  constructor
  · rintro ⟨key, batch, held, mem, mem'⟩
    obtain ⟨rfl, -⟩ := get?_batches_eq_some_iff.1 held
    obtain ⟨stored, own⟩ := List.mem_filter.1 mem
    obtain ⟨stored', own'⟩ := List.mem_filter.1 mem'
    exact ⟨stored, stored',
      (named stored stored').1 ((beq_iff_eq.1 own).trans (beq_iff_eq.1 own').symm)⟩
  · rintro ⟨stored, stored', same⟩
    refine ⟨r.batchKey, _, get?_batches_of_mem stored, ?_, ?_⟩
    · exact List.mem_filter.2 ⟨stored, beq_self_eq_true _⟩
    · exact List.mem_filter.2 ⟨stored', beq_iff_eq.2 ((named stored stored').2 same).symm⟩

/-- A report for a destination, scheduled for a time. -/
def sampleScheduled (id destination : String) (scheduledReportTime : Int) : AggregateReport :=
  { Sample.aggregateReport with id, destination, scheduledReportTime }

/-- Reports about the epoch, and one of each of the first two days that 64 bits reach. -/
def sampleReports : List AggregateReport :=
  [sampleScheduled "a" "shop_0" 5, sampleScheduled "b" "shop" (-1), sampleScheduled "c" "shop_0" 0,
    sampleScheduled "d" "shop" (-0x8000000000000000),
    sampleScheduled "e" "shop" (Time.days (-106751991167))]

/-- The first day starts before what 64 bits hold and still has a batch of its own. -/
theorem batches_partition_sample :
    (batches sampleReports).entries.map (fun e => (e.1, e.2.map (·.id))) =
        [("shop_-86400000", ["b"]), ("shop_-9223372036828800000", ["e"]), ("shop_0_0", ["a", "c"]),
          ("shop_9223372036794351616", ["d"])] ∧
      ((batches sampleReports).entries.flatMap (·.2)).Perm sampleReports ∧
      ¬ ∃ key batch, (batches sampleReports).get? key = some batch ∧
        sampleScheduled "d" "shop" (-0x8000000000000000) ∈ batch ∧
          sampleScheduled "e" "shop" (Time.days (-106751991167)) ∈ batch := by
  obtain ⟨all, -, together⟩ := batches_partition sampleReports (by decide)
  refine ⟨by cbv, all, fun same => ?_⟩
  obtain ⟨-, -, -, day⟩ := (together _ _).1 same
  exact absurd day (by decide)

end AttributionReporting
