import Mathlib.Data.List.Basic
import Mathlib.Order.Bounds.Basic
import Mathlib.Order.Lattice

/-!
# Cells between ascending bounds

Ascending bounds cut the range from the first to the last of them into cells, each from one bound up
to the next one, which it leaves out. No cell is empty, later cells lie above earlier ones, and a
place lies in exactly one of them if it is in the range and in none otherwise (`countP_cells`). The
cell of a place ends at the first bound above it (`find?_eq_some_iff_mem_cells`), which is the least
one (`isLeast_of_find?_eq_some`).
-/

namespace AttributionReporting

/-- The first element with a property is the least one if the list ascends. -/
theorem isLeast_of_find?_eq_some {α : Type} [Preorder α] {l : List α} {p : α → Bool} {a : α}
    (ascending : l.Pairwise (· ≤ ·)) (h : l.find? p = some a) :
    IsLeast {x | x ∈ l ∧ p x = true} a := by
  obtain ⟨holds, before, after, rfl, skipped⟩ := List.find?_eq_some_iff_append.1 h
  refine ⟨⟨List.mem_append_right _ List.mem_cons_self, holds⟩, ?_⟩
  rintro x ⟨mem, hx⟩
  rcases List.mem_append.1 mem with early | mem
  · have := skipped x early
    rw [hx] at this
    cases this
  · rcases List.mem_cons.1 mem with rfl | late
    · exact le_rfl
    · obtain ⟨-, ascending, -⟩ := List.pairwise_append.1 ascending
      exact (List.pairwise_cons.1 ascending).1 x late

/-- The cells between neighbouring bounds: where each begins and before which bound it ends. -/
def cells {α : Type} (bounds : List α) : List (α × α) := bounds.zip bounds.tail

theorem cells_cons_cons {α : Type} (a b : α) (l : List α) :
    cells (a :: b :: l) = (a, b) :: cells (b :: l) := rfl

variable {α : Type} [LinearOrder α] {a x e : α} {bounds l : List α} {c : α × α}

theorem le_of_mem_cells (ascending : (a :: l).Pairwise (· < ·)) (h : c ∈ cells (a :: l)) :
    a ≤ c.1 := by
  have mem : c.1 ∈ a :: l := (List.of_mem_zip h).1
  rcases List.mem_cons.1 mem with first | later
  · exact first.ge
  · exact ((List.pairwise_cons.1 ascending).1 _ later).le

/-- No cell is empty. -/
theorem lt_of_mem_cells (ascending : bounds.Pairwise (· < ·)) (h : c ∈ cells bounds) :
    c.1 < c.2 := by
  induction bounds with
  | nil => cases h
  | cons a l ih =>
    obtain ⟨first, ascending⟩ := List.pairwise_cons.1 ascending
    cases l with
    | nil => cases h
    | cons b l =>
      rcases List.mem_cons.1 h with rfl | later
      · exact first b List.mem_cons_self
      · exact ih ascending later

/-- Each cell has ended where a later one begins. -/
theorem pairwise_cells (ascending : bounds.Pairwise (· < ·)) :
    (cells bounds).Pairwise fun c c' => c.2 ≤ c'.1 := by
  induction bounds with
  | nil => exact List.Pairwise.nil
  | cons a l ih =>
    cases l with
    | nil => exact List.Pairwise.nil
    | cons b l =>
      have ascending := (List.pairwise_cons.1 ascending).2
      exact List.pairwise_cons.2 ⟨fun c' mem => le_of_mem_cells ascending mem, ih ascending⟩

theorem le_getLastD (ascending : (a :: l).Pairwise (· < ·)) : a ≤ l.getLastD a := by
  rcases List.mem_cons.1 (List.getLastD_mem_cons (l := l) (a := a)) with first | later
  · exact first.ge
  · exact ((List.pairwise_cons.1 ascending).1 _ later).le

/-- A place from the first bound up to the last one lies in exactly one cell, any other in none. -/
theorem countP_cells (ascending : (a :: l).Pairwise (· < ·)) (x : α) :
    (cells (a :: l)).countP (fun c => c.1 ≤ x ∧ x < c.2) =
      if a ≤ x ∧ x < l.getLastD a then 1 else 0 := by
  induction l generalizing a with
  | nil =>
    have none : ¬(a ≤ x ∧ x < a) := fun ⟨le, lt⟩ => lt.not_ge le
    rw [List.getLastD_nil, if_neg none]
    rfl
  | cons b l ih =>
    obtain ⟨first, ascending⟩ := List.pairwise_cons.1 ascending
    have lt := first b List.mem_cons_self
    have le := le_getLastD ascending
    rw [cells_cons_cons, List.countP_cons, ih ascending, List.getLastD_cons]
    generalize l.getLastD b = last at le ⊢
    rcases lt_or_ge x b with below | above
    · simp [below.not_ge, below, below.trans_le le]
    · simp [above, above.not_gt, lt.le.trans above]

/-- The end of the cell of a place is the first bound above it. -/
theorem find?_eq_some_iff_mem_cells (ascending : (a :: l).Pairwise (· < ·)) (le : a ≤ x) :
    l.find? (x < ·) = some e ↔ ∃ first, (first, e) ∈ cells (a :: l) ∧ first ≤ x ∧ x < e := by
  induction l generalizing a with
  | nil => simp [cells]
  | cons b l ih =>
    have ascending := (List.pairwise_cons.1 ascending).2
    simp only [cells_cons_cons, List.mem_cons, Prod.mk.injEq]
    by_cases below : x < b
    · rw [List.find?_cons_of_pos (by simpa using below), Option.some.injEq]
      constructor
      · rintro rfl
        exact ⟨a, .inl ⟨rfl, rfl⟩, le, below⟩
      · rintro ⟨first, ⟨-, end_eq⟩ | later, begun, -⟩
        · exact end_eq.symm
        · exact absurd ((le_of_mem_cells ascending later).trans begun) below.not_ge
    · rw [List.find?_cons_of_neg (by simpa using below), ih ascending (not_lt.1 below)]
      constructor
      · rintro ⟨first, mem, inside⟩
        exact ⟨first, .inr mem, inside⟩
      · rintro ⟨first, ⟨-, rfl⟩ | later, inside⟩
        · exact absurd inside.2 below
        · exact ⟨first, later, inside⟩

end AttributionReporting
