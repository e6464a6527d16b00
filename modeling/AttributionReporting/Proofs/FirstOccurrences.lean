import Mathlib.Data.Finset.Card
import Mathlib.Data.List.Induction

/-!
# First occurrences

`List.eraseDups` keeps the first occurrence of every element. One more element at the end is kept
when it is new (`eraseDups_concat`), so no element is left twice, and there are as many as the list
has different ones.
-/

namespace AttributionReporting

variable {α : Type} [DecidableEq α]

theorem eraseDups_concat (l : List α) (a : α) :
    (l ++ [a]).eraseDups = if a ∈ l then l.eraseDups else l.eraseDups ++ [a] := by
  rw [List.eraseDups_append]
  split_ifs with mem
  · have nothing : [a].removeAll l = [] := by simp [List.removeAll, mem]
    rw [nothing, List.eraseDups_nil, List.append_nil]
  · have itself : [a].removeAll l = [a] := by simp [List.removeAll, mem]
    rw [itself]
    rfl

theorem nodup_eraseDups (l : List α) : l.eraseDups.Nodup := by
  induction l using List.reverseRecOn with
  | nil => exact List.nodup_nil
  | append_singleton l a ih =>
    rw [eraseDups_concat]
    split_ifs with mem
    · exact ih
    · rw [← List.concat_eq_append]
      exact ih.concat (mt List.mem_eraseDups.1 mem)

end AttributionReporting
