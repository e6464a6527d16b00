import AttributionReporting.Flexible.Reconcile
import Mathlib.Data.List.Nodup
import Mathlib.Data.List.Perm.Basic

/-!
# Reconciliation as an exchange of slots

A report stands for a `slot`: its trigger data, the start of its bucket and the time it is due.
`matchPending` compares slots only and counts every report once, so that reconciliation splits the
reports that may change into those it keeps and those it deletes, and what it keeps and what it
inserts fill exactly the slots that are wanted (`exists_kept_of_reconcile_eq`). It changes nothing
exactly when the slots of the reports that may change are those wanted (`reconcile_eq_nil_iff`).
-/

open scoped List

namespace AttributionReporting

namespace EventReport

/-- The trigger data and the start of the bucket of a report. -/
def key (r : EventReport) : UInt64 × Option UInt64 := (r.credited.data, r.bucket.map (·.first))

/-- What a report stands for. -/
def slot (r : EventReport) : (UInt64 × Option UInt64) × Int := (r.key, r.reportTime)

theorem sameBucket_iff {a b : EventReport} : a.sameBucket b = true ↔ a.key = b.key := by
  unfold sameBucket key
  rw [Bool.and_eq_true, beq_iff_eq, beq_iff_eq, Prod.mk.injEq]

theorem sameSlot_iff {a b : EventReport} : a.sameSlot b = true ↔ a.slot = b.slot := by
  unfold sameSlot
  rw [Bool.and_eq_true, sameBucket_iff, beq_iff_eq]
  constructor
  · rintro ⟨sameKey, sameTime⟩
    rw [slot, slot, sameKey, sameTime]
  · intro h
    exact ⟨congrArg Prod.fst h, congrArg Prod.snd h⟩

end EventReport

/-! ## Matching -/

theorem swapRemove_perm {α : Type} {l : List α} {i : Nat} (h : i < l.length) :
    (l[i] :: swapRemove l i).Perm l := by
  rcases List.eq_nil_or_concat' l with rfl | ⟨front, last, rfl⟩
  · cases h
  · have taken : swapRemove (front ++ [last]) i = ((front ++ [last]).set i last).dropLast := by
      rw [swapRemove, List.getLast?_concat]
    rw [taken]
    by_cases inner : i < front.length
    · rw [List.getElem_append_left inner, List.set_append_left i last inner, List.dropLast_concat]
      calc front[i] :: front.set i last
          ~ front[i] :: last :: front.eraseIdx i :=
            (List.set_perm_cons_eraseIdx inner last).cons _
        _ ~ last :: front[i] :: front.eraseIdx i := List.Perm.swap _ _ _
        _ ~ last :: front := (List.getElem_cons_eraseIdx_perm inner).cons _
        _ ~ front ++ [last] := (List.perm_append_singleton last front).symm
    · have eq : i = front.length := by
        rw [List.length_append, List.length_singleton] at h
        omega
      subst eq
      rw [List.getElem_concat_length rfl, List.set_append_right _ _ (Nat.le_refl _), Nat.sub_self,
        List.set_cons_zero, List.dropLast_concat]
      exact (List.perm_append_singleton last front).symm

/-- Matching splits the pending reports into some that fill wanted slots and those left over. The
wanted slots that are missing are filled by none of those left over. -/
theorem exists_kept_matchPending (wanted pending : List EventReport) :
    ∃ kept, pending.Perm (kept ++ (matchPending wanted pending).2) ∧
      (wanted.map EventReport.slot).Perm
        ((kept ++ (matchPending wanted pending).1).map EventReport.slot) ∧
        (matchPending wanted pending).1.Sublist wanted ∧
          ∀ r ∈ (matchPending wanted pending).1, ∀ s ∈ (matchPending wanted pending).2,
            s.slot ≠ r.slot := by
  fun_induction matchPending wanted pending with
  | case1 pending => exact ⟨[], .refl _, .refl _, .refl _, by simp⟩
  | case2 r wanted pending i found ih =>
    obtain ⟨kept, split, fill, sub, apart⟩ := ih
    rw [List.findIdx?_eq_some_iff_getElem] at found
    obtain ⟨hi, same, -⟩ := found
    refine ⟨pending[i] :: kept, ?_, ?_, sub.cons r, apart⟩
    · exact (swapRemove_perm hi).symm.trans (split.cons _)
    · rw [List.map_cons, List.cons_append, List.map_cons, EventReport.sameSlot_iff.1 same]
      exact fill.cons _
  | case3 r wanted pending none_found missing left eq ih =>
    rw [eq] at ih
    obtain ⟨kept, split, fill, sub, apart⟩ := ih
    refine ⟨kept, split, ?_, sub.cons_cons r, List.forall_mem_cons.2 ⟨fun s hs => ?_, apart⟩⟩
    · rw [List.map_cons, List.map_append, List.map_cons]
      exact ((fill.trans (by rw [List.map_append])).cons _).trans List.perm_middle.symm
    · have mem : s ∈ pending := split.mem_iff.2 (List.mem_append_right kept hs)
      have differs := List.findIdx?_eq_none_iff.1 none_found s mem
      rw [Ne, ← EventReport.sameSlot_iff, differs]
      exact Bool.false_ne_true

theorem matchPending_eq_nil_iff {wanted pending : List EventReport} :
    matchPending wanted pending = ([], []) ↔
      (wanted.map EventReport.slot).Perm (pending.map EventReport.slot) := by
  obtain ⟨kept, split, fill, -, apart⟩ := exists_kept_matchPending wanted pending
  constructor
  · intro h
    rw [h, List.append_nil] at split fill
    exact fill.trans (split.map _).symm
  · intro h
    -- what is missing and what is left over fill the same slots, and share none
    have same : ((matchPending wanted pending).1.map EventReport.slot).Perm
        ((matchPending wanted pending).2.map EventReport.slot) := by
      rw [← List.perm_append_left_iff (kept.map EventReport.slot), ← List.map_append,
        ← List.map_append]
      exact fill.symm.trans (h.trans (split.map _))
    have missing_nil : (matchPending wanted pending).1 = [] := by
      rw [List.eq_nil_iff_forall_not_mem]
      intro r hr
      obtain ⟨s, hs, eq⟩ := List.mem_map.1 (same.mem_iff.1 (List.mem_map_of_mem hr))
      exact apart r hr s hs eq
    rw [missing_nil, List.map_nil, List.nil_perm, List.map_eq_nil_iff] at same
    exact Prod.ext missing_nil same

/-! ## Reconciliation -/

/-- The standing reports that can no longer be taken back. -/
def lockedReports (existing : List EventReport) (now : Int) : List EventReport :=
  existing.filter fun r => r.isLocked now && r.isStanding

/-- The standing reports that may still be taken back. -/
def changeableReports (existing : List EventReport) (now : Int) : List EventReport :=
  existing.filter fun r => !r.isLocked now && r.isStanding

section

variable {maxReports : Nat} {desired existing insert delete : List EventReport} {now : Int}

theorem mem_lockedReports {r : EventReport} :
    r ∈ lockedReports existing now ↔
      r ∈ existing ∧ r.isStanding = true ∧ r.isLocked now = true := by
  rw [lockedReports, List.mem_filter, Bool.and_eq_true, and_comm (a := r.isLocked now = true)]

theorem mem_changeableReports {r : EventReport} :
    r ∈ changeableReports existing now ↔
      r ∈ existing ∧ r.isStanding = true ∧ r.isLocked now = false := by
  rw [changeableReports, List.mem_filter, Bool.and_eq_true, Bool.not_eq_true',
    and_comm (a := r.isLocked now = false)]

/-- Standing reports are either locked or may be changed. -/
theorem locked_append_changeable_perm (existing : List EventReport) (now : Int) :
    (lockedReports existing now ++ changeableReports existing now).Perm
      (existing.filter (·.isStanding)) := by
  have split := List.filter_append_perm (fun r => r.isLocked now) (existing.filter (·.isStanding))
  rwa [List.filter_filter, List.filter_filter] at split

theorem reconcile_eq_matchPending :
    reconcile maxReports desired existing now =
      matchPending (openReports maxReports desired (lockedReports existing now) now)
        (changeableReports existing now) := by
  unfold reconcile lockedReports changeableReports
  rw [← List.filter_filter, ← List.filter_filter]

/-- Reconciliation keeps some of the reports that may change and deletes the others. What it keeps
and what it inserts fill the wanted slots. -/
theorem exists_kept_of_reconcile_eq
    (h : reconcile maxReports desired existing now = (insert, delete)) :
    ∃ kept, (changeableReports existing now).Perm (kept ++ delete) ∧
      ((openReports maxReports desired (lockedReports existing now) now).map
        EventReport.slot).Perm ((kept ++ insert).map EventReport.slot) ∧
        insert.Sublist (openReports maxReports desired (lockedReports existing now) now) ∧
          ∀ r ∈ insert, ∀ s ∈ delete, s.slot ≠ r.slot := by
  have spec := exists_kept_matchPending
    (openReports maxReports desired (lockedReports existing now) now)
    (changeableReports existing now)
  rw [← reconcile_eq_matchPending, h] at spec
  exact spec

/-- Reconciliation changes nothing exactly when the reports that may change fill the wanted
slots. -/
theorem reconcile_eq_nil_iff :
    reconcile maxReports desired existing now = ([], []) ↔
      ((openReports maxReports desired (lockedReports existing now) now).map
        EventReport.slot).Perm ((changeableReports existing now).map EventReport.slot) := by
  rw [reconcile_eq_matchPending, matchPending_eq_nil_iff]

/-- The desired reports that no locked report covers and that are not due in the past. -/
def uncoveredReports (desired locked : List EventReport) (now : Int) : List EventReport :=
  desired.filter fun r => !locked.any (·.sameBucket r) && decide (now ≤ r.reportTime)

theorem mem_uncoveredReports {locked : List EventReport} {r : EventReport} :
    r ∈ uncoveredReports desired locked now ↔
      r ∈ desired ∧ (∀ s ∈ locked, s.key ≠ r.key) ∧ now ≤ r.reportTime := by
  unfold uncoveredReports
  rw [List.mem_filter, Bool.and_eq_true, Bool.not_eq_true', List.any_eq_false, decide_eq_true_eq]
  simp only [EventReport.sameBucket_iff, ne_eq]

/-- The wanted reports are the first uncovered ones. -/
theorem openReports_eq_take (locked : List EventReport) :
    openReports maxReports desired locked now =
      (uncoveredReports desired locked now).take (maxReports - locked.length) :=
  rfl

theorem mem_of_mem_openReports {locked : List EventReport} {r : EventReport}
    (h : r ∈ openReports maxReports desired locked now) :
    r ∈ desired ∧ (∀ s ∈ locked, s.key ≠ r.key) ∧ now ≤ r.reportTime :=
  mem_uncoveredReports.1 (List.mem_of_mem_take h)

end

end AttributionReporting
