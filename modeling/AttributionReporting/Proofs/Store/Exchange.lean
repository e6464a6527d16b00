import AttributionReporting.Proofs.Store.Keyed
import AttributionReporting.Store.Write

/-!
# Exchanging event reports

A trigger may delete some event reports and insert others. `exchangeReports?` is what this does to
the stored reports, or nothing when the store refuses one of the calls. While the ids of the stored
reports are distinct, deleting reports that are stored never fails, and inserting reports fails only
when an id would be taken twice (`exchangeReports?_eq_some_iff`).
-/

namespace AttributionReporting

/-- The stored reports without some, all of which must be there. -/
def deleteReports? : List EventReport → List EventReport → Option (List EventReport)
  | [], stored => some stored
  | r :: rest, stored => (removeKey? EventReport.id r.id stored).bind (deleteReports? rest)

/-- The stored reports with some more, whose ids must be new. -/
def insertReports? : List EventReport → List EventReport → Option (List EventReport)
  | [], stored => some stored
  | r :: rest, stored =>
    bif stored.any (·.id == r.id) then none else insertReports? rest (stored ++ [r])

/-- The stored reports after deleting some and then inserting others. -/
def exchangeReports? (insert delete stored : List EventReport) : Option (List EventReport) :=
  (deleteReports? delete stored).bind (insertReports? insert)

/-- The reports that are not deleted. -/
def remainingReports (delete stored : List EventReport) : List EventReport :=
  stored.filter fun r => r.id ∉ delete.map EventReport.id

variable {insert delete stored after : List EventReport}

theorem remainingReports_nil (stored : List EventReport) : remainingReports [] stored = stored :=
  List.filter_eq_self.2 fun _ _ => decide_eq_true List.not_mem_nil

theorem filter_remainingReports (p : EventReport → Bool) (delete stored : List EventReport) :
    (remainingReports delete stored).filter p = remainingReports delete (stored.filter p) := by
  unfold remainingReports
  rw [List.filter_filter, List.filter_filter]
  exact List.filter_congr fun r _ => Bool.and_comm _ _

/-- Deleting others leaves the reports with a property alone. -/
theorem filter_remainingReports_of_apart {p : EventReport → Bool}
    (apart : ∀ r ∈ stored, p r = true → r.id ∉ delete.map EventReport.id) :
    (remainingReports delete stored).filter p = stored.filter p := by
  rw [filter_remainingReports, remainingReports, List.filter_eq_self]
  intro r hr
  obtain ⟨mem, holds⟩ := List.mem_filter.1 hr
  exact decide_eq_true (apart r mem holds)

/-- When ids are distinct, deleting a report takes out that report alone. -/
theorem remainingReports_singleton {front back : List EventReport} {r : EventReport}
    (ids : ((front ++ r :: back).map EventReport.id).Nodup) :
    remainingReports [r] (front ++ r :: back) = front ++ back := by
  rw [List.map_append, List.map_cons, List.nodup_middle, List.nodup_cons, ← List.map_append] at ids
  have others : ∀ part : List EventReport, (∀ s ∈ part, s ∈ front ++ back) →
      part.filter (fun s => s.id ∉ [r].map EventReport.id) = part := by
    intro part sub
    refine List.filter_eq_self.2 fun s hs => decide_eq_true fun same => ids.1 ?_
    rw [← List.mem_singleton.1 same]
    exact List.mem_map_of_mem (sub s hs)
  unfold remainingReports
  rw [List.filter_append, List.filter_cons_of_neg (by simp),
    others front fun _ => List.mem_append_left back,
    others back fun _ => List.mem_append_right front]

theorem deleteReports?_of_nodup (stored_ids : (stored.map EventReport.id).Nodup)
    (delete_ids : (delete.map EventReport.id).Nodup)
    (sub : ∀ r ∈ delete, r.id ∈ stored.map EventReport.id) :
    deleteReports? delete stored = some (remainingReports delete stored) := by
  induction delete generalizing stored with
  | nil =>
    rw [deleteReports?, remainingReports_nil]
  | cons r rest ih =>
    obtain ⟨fresh, delete_ids⟩ := List.nodup_cons.1 delete_ids
    obtain ⟨first, sub⟩ := List.forall_mem_cons.1 sub
    rw [deleteReports?, removeKey?_of_nodup stored_ids, if_pos first, Option.bind_some, ih]
    · unfold remainingReports
      rw [List.filter_filter]
      congr 1
      apply List.filter_congr
      intro s _
      simp only [List.map_cons, List.mem_cons, not_or, Bool.decide_and, ne_eq, Bool.and_comm]
    · exact stored_ids.sublist (List.filter_sublist.map _)
    · exact delete_ids
    · intro s hs
      obtain ⟨t, ht, eq⟩ := List.mem_map.1 (sub s hs)
      refine List.mem_map.2 ⟨t, List.mem_filter.2 ⟨ht, decide_eq_true fun same => fresh ?_⟩, eq⟩
      rw [← same, eq]
      exact List.mem_map_of_mem hs

theorem insertReports?_eq_some_iff (stored_ids : (stored.map EventReport.id).Nodup) :
    insertReports? insert stored = some after ↔
      after = stored ++ insert ∧ (after.map EventReport.id).Nodup := by
  induction insert generalizing stored with
  | nil =>
    rw [insertReports?, Option.some.injEq, List.append_nil]
    constructor
    · rintro rfl
      exact ⟨rfl, stored_ids⟩
    · rintro ⟨rfl, -⟩
      rfl
  | cons r rest ih =>
    rw [insertReports?]
    by_cases taken : r.id ∈ stored.map EventReport.id
    · have clash : stored.any (·.id == r.id) = true := by simpa using taken
      rw [clash, cond_true]
      simp only [reduceCtorEq, false_iff]
      rintro ⟨rfl, nodup⟩
      rw [List.map_append, List.nodup_append] at nodup
      exact nodup.2.2 r.id taken r.id (List.mem_map_of_mem List.mem_cons_self) rfl
    · have free : stored.any (·.id == r.id) = false := by simpa using taken
      rw [free, cond_false, ih]
      · rw [List.append_assoc, List.singleton_append]
      · rw [List.map_append, List.nodup_append]
        refine ⟨stored_ids, List.pairwise_singleton _ _, fun a ha b hb eq => taken ?_⟩
        rw [List.map_singleton, List.mem_singleton] at hb
        rwa [← hb, ← eq]

theorem exchangeReports?_eq_some_iff (stored_ids : (stored.map EventReport.id).Nodup)
    (delete_ids : (delete.map EventReport.id).Nodup)
    (sub : ∀ r ∈ delete, r.id ∈ stored.map EventReport.id) :
    exchangeReports? insert delete stored = some after ↔
      after = remainingReports delete stored ++ insert ∧ (after.map EventReport.id).Nodup := by
  rw [exchangeReports?, deleteReports?_of_nodup stored_ids delete_ids sub, Option.bind_some,
    insertReports?_eq_some_iff]
  exact stored_ids.sublist (List.filter_sublist.map _)

/-! ## The reports of one source -/

/-- An exchange among the reports of a source. -/
theorem filter_exchange_self {sourceId : String} (mine : ∀ r ∈ insert, r.sourceId = sourceId) :
    (remainingReports delete stored ++ insert).filter (·.sourceId == sourceId) =
      remainingReports delete (stored.filter (·.sourceId == sourceId)) ++ insert := by
  have all : insert.filter (·.sourceId == sourceId) = insert :=
    List.filter_eq_self.2 fun r hr => beq_iff_eq.2 (mine r hr)
  rw [List.filter_append, all, filter_remainingReports]

/-- The other sources keep their reports. -/
theorem filter_exchange_of_ne {sourceId other : String} (ne : other ≠ sourceId)
    (stored_ids : (stored.map EventReport.id).Nodup)
    (own : ∀ r ∈ delete, r ∈ stored ∧ r.sourceId = sourceId)
    (mine : ∀ r ∈ insert, r.sourceId = sourceId) :
    (remainingReports delete stored ++ insert).filter (·.sourceId == other) =
      stored.filter (·.sourceId == other) := by
  have no_insert : insert.filter (·.sourceId == other) = [] := by
    refine List.filter_eq_nil_iff.2 fun r hr same => ne ?_
    rw [← mine r hr]
    exact (beq_iff_eq.1 same).symm
  rw [List.filter_append, no_insert, List.append_nil]
  apply filter_remainingReports_of_apart
  intro r hr same taken
  obtain ⟨d, hd, eq⟩ := List.mem_map.1 taken
  obtain ⟨stored_d, source_d⟩ := own d hd
  obtain rfl : d = r := List.inj_on_of_nodup_map stored_ids stored_d hr eq
  exact ne ((beq_iff_eq.1 same).symm.trans source_d)

end AttributionReporting
