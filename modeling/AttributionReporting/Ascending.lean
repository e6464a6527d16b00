/-!
# Ascending lists

`ascending` looks at neighbours only; for a transitive order this means that every element is below
all that follow it (`ascending_iff_pairwise`).
-/

namespace AttributionReporting

variable {α : Type} [LT α] [DecidableLT α]

/-- Whether every element is below the next one. -/
def ascending : List α → Bool
  | a :: b :: rest => decide (a < b) && ascending (b :: rest)
  | _ => true

theorem ascending_iff_pairwise (trans : ∀ {a b c : α}, a < b → b < c → a < c) {l : List α} :
    ascending l = true ↔ l.Pairwise (· < ·) := by
  induction l with
  | nil => simp [ascending]
  | cons a rest ih =>
    cases rest with
    | nil => simp [ascending]
    | cons b rest =>
      rw [ascending, Bool.and_eq_true, decide_eq_true_iff, ih, List.pairwise_cons (a := a)]
      refine ⟨fun ⟨lt, rest⟩ => ⟨fun c hc => ?_, rest⟩,
        fun ⟨first, rest⟩ => ⟨first b (by simp), rest⟩⟩
      rcases List.mem_cons.1 hc with rfl | hc
      · exact lt
      · exact trans lt ((List.pairwise_cons.1 rest).1 c hc)

end AttributionReporting
