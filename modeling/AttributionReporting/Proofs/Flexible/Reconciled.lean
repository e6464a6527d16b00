import AttributionReporting.Proofs.Flexible.Matching
import AttributionReporting.Proofs.Store.Exchange

/-!
# What reconciliation leaves

When the reports of a source are exchanged as reconciliation says, the locked ones stay as they are
(`lockedReports_exchange`) and those that may change fill exactly the wanted slots
(`changeableReports_exchange`). So the standing reports number no more than the limit, unless there
were more locked ones to begin with (`standing_exchange_le`), and a second reconciliation changes
nothing.
-/

open scoped List

namespace AttributionReporting

variable {maxReports : Nat} {desired existing insert delete : List EventReport} {now : Int}

theorem mem_of_mem_delete (h : reconcile maxReports desired existing now = (insert, delete))
    {r : EventReport} (hr : r ∈ delete) : r ∈ changeableReports existing now := by
  obtain ⟨kept, split, -⟩ := exists_kept_of_reconcile_eq h
  exact split.mem_iff.2 (List.mem_append_right kept hr)

theorem mem_of_mem_insert (h : reconcile maxReports desired existing now = (insert, delete))
    {r : EventReport} (hr : r ∈ insert) :
    r ∈ openReports maxReports desired (lockedReports existing now) now := by
  obtain ⟨-, -, -, sub, -⟩ := exists_kept_of_reconcile_eq h
  exact sub.subset hr

theorem insert_sublist_desired (h : reconcile maxReports desired existing now = (insert, delete)) :
    insert.Sublist desired := by
  obtain ⟨-, -, -, sub, -⟩ := exists_kept_of_reconcile_eq h
  exact sub.trans ((List.take_sublist _ _).trans List.filter_sublist)

theorem nodup_delete_ids (ids : (existing.map EventReport.id).Nodup)
    (h : reconcile maxReports desired existing now = (insert, delete)) :
    (delete.map EventReport.id).Nodup := by
  obtain ⟨kept, split, -⟩ := exists_kept_of_reconcile_eq h
  have all : ((kept ++ delete).map EventReport.id).Nodup :=
    (split.map _).nodup (ids.sublist (List.filter_sublist.map _))
  rw [List.map_append] at all
  exact all.of_append_right

/-- Reports have distinct ids, so the id of a deleted report is that of no locked one. -/
theorem id_notMem_delete_of_locked (ids : (existing.map EventReport.id).Nodup)
    (h : reconcile maxReports desired existing now = (insert, delete)) {r : EventReport}
    (hr : r ∈ lockedReports existing now) : r.id ∉ delete.map EventReport.id := by
  intro taken
  obtain ⟨d, hd, eq⟩ := List.mem_map.1 taken
  obtain ⟨mem_d, -, free⟩ := mem_changeableReports.1 (mem_of_mem_delete h hd)
  obtain ⟨mem_r, -, locked⟩ := mem_lockedReports.1 hr
  have same : d = r := List.inj_on_of_nodup_map ids mem_d mem_r eq
  rw [same, locked] at free
  cases free

/-- What is inserted stands for other buckets than the standing reports that are left. -/
theorem key_ne_of_mem_insert (keys : (desired.map EventReport.key).Nodup)
    (h : reconcile maxReports desired existing now = (insert, delete)) {r : EventReport}
    (hr : r ∈ insert) {s : EventReport} (hs : s ∈ remainingReports delete existing)
    (standing : s.isStanding = true) : s.key ≠ r.key := by
  obtain ⟨mem, kept_id⟩ := List.mem_filter.1 hs
  cases locked : s.isLocked now with
  | true =>
    have apart := (mem_of_mem_openReports (mem_of_mem_insert h hr)).2.1
    exact apart s (mem_lockedReports.2 ⟨mem, standing, locked⟩)
  | false =>
    obtain ⟨kept, split, fill, -, -⟩ := exists_kept_of_reconcile_eq h
    have hk : s ∈ kept := by
      rcases List.mem_append.1 (split.mem_iff.1 (mem_changeableReports.2 ⟨mem, standing, locked⟩))
        with hk | deleted
      · exact hk
      · exact absurd (List.mem_map_of_mem deleted) (of_decide_eq_true kept_id)
    -- what is kept and what is inserted fill slots of different buckets
    have wanted : (((kept ++ insert).map EventReport.slot).map Prod.fst).Nodup := by
      refine (fill.map Prod.fst).nodup ?_
      rw [List.map_map]
      refine keys.sublist (List.Sublist.map _ ?_)
      exact (List.take_sublist _ _).trans List.filter_sublist
    rw [List.map_map, List.map_append, List.nodup_append] at wanted
    exact wanted.2.2 _ (List.mem_map_of_mem hk) _ (List.mem_map_of_mem hr)

section

variable (ids : (existing.map EventReport.id).Nodup)
  (pending : ∀ r ∈ desired, r.status = .pending)
  (h : reconcile maxReports desired existing now = (insert, delete))

include pending h in
theorem insert_changeable {r : EventReport} (hr : r ∈ insert) :
    r.isLocked now = false ∧ r.isStanding = true := by
  obtain ⟨mem, -, due⟩ := mem_of_mem_openReports (mem_of_mem_insert h hr)
  have status := pending r mem
  unfold EventReport.isLocked EventReport.isStanding
  rw [status]
  exact ⟨by simpa using due, rfl⟩

include ids pending h

/-- Reconciliation leaves the locked reports alone, and locks none. -/
theorem lockedReports_exchange :
    lockedReports (remainingReports delete existing ++ insert) now =
      lockedReports existing now := by
  have inserted : lockedReports insert now = [] := by
    apply List.filter_eq_nil_iff.2
    intro r hr
    rw [(insert_changeable pending h hr).1]
    simp
  have kept : lockedReports (remainingReports delete existing) now =
      lockedReports existing now := by
    apply filter_remainingReports_of_apart
    intro r hr locked
    exact id_notMem_delete_of_locked ids h (List.mem_filter.2 ⟨hr, locked⟩)
  have split : lockedReports (remainingReports delete existing ++ insert) now =
      lockedReports (remainingReports delete existing) now ++ lockedReports insert now :=
    List.filter_append _ _
  rw [split, kept, inserted, List.append_nil]

/-- After reconciliation the reports that may change fill the wanted slots. -/
theorem changeableReports_exchange :
    ((changeableReports (remainingReports delete existing ++ insert) now).map
      EventReport.slot).Perm
      ((openReports maxReports desired (lockedReports existing now) now).map EventReport.slot) := by
  obtain ⟨kept, split, fill, -, -⟩ := exists_kept_of_reconcile_eq h
  have distinct : ((kept ++ delete).map EventReport.id).Nodup :=
    (split.map _).nodup (ids.sublist (List.filter_sublist.map _))
  rw [List.map_append, List.nodup_append] at distinct
  -- taking the deleted ids out of what may change leaves what was kept
  have remaining : (changeableReports (remainingReports delete existing) now).Perm kept := by
    have swap : changeableReports (remainingReports delete existing) now =
        remainingReports delete (changeableReports existing now) :=
      filter_remainingReports _ delete existing
    have stay : remainingReports delete kept = kept :=
      List.filter_eq_self.2 fun r hr => decide_eq_true fun hd =>
        distinct.2.2 r.id (List.mem_map_of_mem hr) r.id hd rfl
    have go : remainingReports delete delete = [] :=
      List.filter_eq_nil_iff.2 fun r hr => by simpa using ⟨r, hr, rfl⟩
    rw [swap]
    calc remainingReports delete (changeableReports existing now)
        ~ remainingReports delete (kept ++ delete) := split.filter _
      _ = remainingReports delete kept ++ remainingReports delete delete := List.filter_append _ _
      _ = kept := by rw [stay, go, List.append_nil]
  have inserted : changeableReports insert now = insert := by
    apply List.filter_eq_self.2
    intro r hr
    obtain ⟨free, standing⟩ := insert_changeable pending h hr
    rw [free, standing]
    rfl
  have append : changeableReports (remainingReports delete existing ++ insert) now =
      changeableReports (remainingReports delete existing) now ++ changeableReports insert now :=
    List.filter_append _ _
  rw [append, inserted]
  exact ((remaining.append_right insert).map _).trans fill.symm

/-- The slots of the standing reports after reconciliation. -/
theorem standing_exchange_perm :
    (((remainingReports delete existing ++ insert).filter (·.isStanding)).map
      EventReport.slot).Perm
      ((lockedReports existing now).map EventReport.slot ++
        (openReports maxReports desired (lockedReports existing now) now).map
          EventReport.slot) := by
  have split := (locked_append_changeable_perm
    (remainingReports delete existing ++ insert) now).map EventReport.slot
  rw [lockedReports_exchange ids pending h, List.map_append] at split
  exact split.symm.trans ((changeableReports_exchange ids pending h).append_left _)

/-- Reconciliation does not take the standing reports past the limit. -/
theorem standing_exchange_le (le : (existing.filter (·.isStanding)).length ≤ maxReports) :
    ((remainingReports delete existing ++ insert).filter (·.isStanding)).length ≤ maxReports := by
  have count := (standing_exchange_perm ids pending h).length_eq
  have before := (locked_append_changeable_perm existing now).length_eq
  simp only [List.length_map, List.length_append] at count before
  have room : (openReports maxReports desired (lockedReports existing now) now).length ≤
      maxReports - (lockedReports existing now).length := List.length_take_le _ _
  omega

end

end AttributionReporting
