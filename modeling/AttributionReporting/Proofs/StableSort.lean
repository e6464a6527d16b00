import Mathlib.Data.List.Basic
import Mathlib.Data.List.Pairwise

/-!
# Stable sorting

A stable sort moves elements only past those of another rank (`filter_mergeSort`). When every rank
is taken at most once, there is one way to sort: a list in order is what sorting its elements gives
(`eq_mergeSort_of_perm`), and the order in which they came does not matter
(`mergeSort_eq_of_perm`).
-/

namespace AttributionReporting

variable {α : Type} {le : α → α → Bool} {l l' : List α}

/-- A stable sort leaves elements that are all ranked alike as they stand. -/
theorem filter_mergeSort {p : α → Bool}
    (trans : ∀ a b c, le a b = true → le b c = true → le a c = true)
    (total : ∀ a b, (le a b || le b a) = true)
    (alike : ∀ a b, p a = true → p b = true → le a b = true) (l : List α) :
    (l.mergeSort le).filter p = l.filter p := by
  have tied : (l.filter p).Pairwise fun a b => le a b = true := by
    apply List.pairwise_of_forall_mem_list
    intro a ha b hb
    exact alike a b (List.mem_filter.1 ha).2 (List.mem_filter.1 hb).2
  have sub : (l.filter p).Sublist ((l.mergeSort le).filter p) := by
    have kept := (List.sublist_mergeSort trans total tied List.filter_sublist).filter p
    simpa [List.filter_filter] using kept
  exact (sub.eq_of_length ((List.mergeSort_perm l le).filter p).length_eq.symm).symm

/-- Of elements no two of which are ranked alike, there is one list in order. -/
theorem eq_mergeSort_of_perm (trans : ∀ a b c, le a b = true → le b c = true → le a c = true)
    (total : ∀ a b, (le a b || le b a) = true)
    (antisymm : ∀ a ∈ l, ∀ b ∈ l, le a b = true → le b a = true → a = b)
    (sorted : l'.Pairwise fun a b => le a b = true) (perm : l'.Perm l) : l' = l.mergeSort le := by
  refine List.Perm.eq_of_pairwise (fun a b ha hb => antisymm a ?_ b ?_) sorted
    (List.pairwise_mergeSort trans total l) (perm.trans (List.mergeSort_perm l le).symm)
  · exact perm.mem_iff.1 ha
  · exact (List.mergeSort_perm l le).mem_iff.1 hb

theorem mergeSort_eq_of_perm (trans : ∀ a b c, le a b = true → le b c = true → le a c = true)
    (total : ∀ a b, (le a b || le b a) = true)
    (antisymm : ∀ a ∈ l, ∀ b ∈ l, le a b = true → le b a = true → a = b) (perm : l'.Perm l) :
    l'.mergeSort le = l.mergeSort le :=
  eq_mergeSort_of_perm trans total antisymm (List.pairwise_mergeSort trans total l')
    ((List.mergeSort_perm l' le).trans perm)

end AttributionReporting
