import AttributionReporting.EventReport
import Mathlib.Data.List.Basic

/-!
# Ids of reports

The id of a flexible report ends with the start of its bucket in decimal, after a colon. No colon
stands among the digits, so the id of a report of a given source tells its trigger and its bucket
(`flexibleId_inj`), whatever colons the trigger's own id has. When neither the ids of sources nor
those of triggers have a colon, the id of any report tells its source, its trigger and its bucket if
it has one (`ownId_inj`).
-/

namespace AttributionReporting

/-- What follows the last separator is told by the whole. -/
theorem append_separator_inj {α : Type} {sep : α} {a b c d : List α} (hc : sep ∉ c) (hd : sep ∉ d)
    (h : a ++ sep :: c = b ++ sep :: d) : a = b ∧ c = d := by
  rcases List.append_eq_append_iff.1 h with ⟨more, rfl, eq⟩ | ⟨more, rfl, eq⟩
  · cases more with
    | nil => simpa using eq
    | cons x more =>
      rw [List.cons_append, List.cons.injEq] at eq
      exact absurd (eq.2 ▸ List.mem_append_right more List.mem_cons_self) hc
  · cases more with
    | nil => simpa [eq_comm] using eq
    | cons x more =>
      rw [List.cons_append, List.cons.injEq] at eq
      exact absurd (eq.2 ▸ List.mem_append_right more List.mem_cons_self) hd

/-- What precedes the first separator is told by the whole. -/
theorem separator_append_inj {α : Type} {sep : α} {a b c d : List α} (ha : sep ∉ a) (hb : sep ∉ b)
    (h : a ++ sep :: c = b ++ sep :: d) : a = b ∧ c = d := by
  have reversed : c.reverse ++ sep :: a.reverse = d.reverse ++ sep :: b.reverse := by
    simpa using congrArg List.reverse h
  obtain ⟨tails, heads⟩ := append_separator_inj (by simpa using ha) (by simpa using hb) reversed
  exact ⟨List.reverse_injective heads, List.reverse_injective tails⟩

/-- Only digits stand in a numeral. -/
theorem notMem_toDigits {c : Char} (other : c.isDigit = false) (n : Nat) :
    c ∉ Nat.toDigits 10 n := by
  intro h
  have digit := Nat.isDigit_of_mem_toDigits (by decide) (by decide) h
  rw [other] at digit
  cases digit

theorem toDigits_inj {m n : Nat} (h : Nat.toDigits 10 m = Nat.toDigits 10 n) : m = n := by
  rw [← Nat.ofDigitChars_toDigits (b := 10) (n := m) (by decide) (by decide), h,
    Nat.ofDigitChars_toDigits (by decide) (by decide)]

/-- The id of the report that credits a trigger with the bucket starting at `first`. -/
def flexibleId (sourceId triggerId : String) (first : UInt64) : String :=
  sourceId ++ ":" ++ triggerId ++ ":" ++ toString first.toNat

theorem flexibleId_inj {sourceId u v : String} {m n : UInt64}
    (h : flexibleId sourceId u m = flexibleId sourceId v n) : u = v ∧ m = n := by
  have chars := congrArg String.toList h
  simp only [flexibleId, String.toList_append, Nat.toString_eq_repr, Nat.toList_repr,
    List.append_assoc] at chars
  have colon : ":".toList = [':'] := rfl
  rw [colon] at chars
  have tail := List.append_cancel_left (List.append_cancel_left chars)
  simp only [List.singleton_append] at tail
  have apart := notMem_toDigits (c := ':') rfl
  obtain ⟨ids, digits⟩ := append_separator_inj (apart _) (apart _) tail
  exact ⟨String.toList_inj.1 ids, UInt64.toNat_inj.1 (toDigits_inj digits)⟩

/-! ## Ids without colons -/

/-- An id that has no colon. -/
def Colonless (id : String) : Prop := ':' ∉ id.toList

theorem colonless_append_inj {a b c d : String} (ha : Colonless a) (hb : Colonless b)
    (h : a ++ ":" ++ c = b ++ ":" ++ d) : a = b ∧ c = d := by
  have chars := congrArg String.toList h
  simp only [String.toList_append, List.append_assoc] at chars
  obtain ⟨front, back⟩ := separator_append_inj ha hb chars
  exact ⟨String.toList_inj.1 front, String.toList_inj.1 back⟩

theorem aggregateId_inj {a b c d : String} (ha : Colonless a) (hb : Colonless b)
    (h : a ++ ":" ++ c ++ ":aggregate" = b ++ ":" ++ d ++ ":aggregate") : a = b ∧ c = d := by
  obtain ⟨front, back⟩ :=
    colonless_append_inj ha hb (String.append_assoc.symm.trans (h.trans String.append_assoc))
  have chars := congrArg String.toList back
  rw [String.toList_append, String.toList_append] at chars
  exact ⟨front, String.toList_inj.1 (List.append_cancel_right chars)⟩

theorem not_colonless_append {a b : String} : ¬ Colonless (a ++ ":" ++ b) := by
  simp [Colonless]

/-- The id that a report has for what it credits. -/
def EventReport.ownId (r : EventReport) : String :=
  match r.bucket with
  | none => r.sourceId ++ ":" ++ r.credited.triggerId
  | some bucket => flexibleId r.sourceId r.credited.triggerId bucket.first

theorem flexibleId_eq (sourceId triggerId : String) (first : UInt64) :
    flexibleId sourceId triggerId first =
      sourceId ++ ":" ++ (triggerId ++ ":" ++ toString first.toNat) := by
  simp only [flexibleId, String.append_assoc]

theorem EventReport.exists_ownId_eq (r : EventReport) :
    ∃ rest, r.ownId = r.sourceId ++ ":" ++ rest := by
  unfold ownId
  split
  · exact ⟨_, rfl⟩
  · exact ⟨_, flexibleId_eq _ _ _⟩

theorem EventReport.ownId_inj {a b : EventReport} (a_source : Colonless a.sourceId)
    (b_source : Colonless b.sourceId) (a_trigger : Colonless a.credited.triggerId)
    (b_trigger : Colonless b.credited.triggerId) (h : a.ownId = b.ownId) :
    a.sourceId = b.sourceId ∧ a.credited.triggerId = b.credited.triggerId ∧
      a.bucket.map (·.first) = b.bucket.map (·.first) := by
  unfold ownId at h
  cases a_bucket : a.bucket with
  | none =>
    cases b_bucket : b.bucket with
    | none =>
      rw [a_bucket, b_bucket] at h
      obtain ⟨sources, triggers⟩ := colonless_append_inj a_source b_source h
      exact ⟨sources, triggers, rfl⟩
    | some _ =>
      rw [a_bucket, b_bucket] at h
      dsimp only at h
      rw [flexibleId_eq] at h
      obtain ⟨-, triggers⟩ := colonless_append_inj a_source b_source h
      exact absurd (triggers ▸ a_trigger) not_colonless_append
  | some _ =>
    cases b_bucket : b.bucket with
    | none =>
      rw [a_bucket, b_bucket] at h
      dsimp only at h
      rw [flexibleId_eq] at h
      obtain ⟨-, triggers⟩ := colonless_append_inj a_source b_source h
      exact absurd (triggers ▸ b_trigger) not_colonless_append
    | some _ =>
      rw [a_bucket, b_bucket] at h
      dsimp only at h
      have ids := h
      rw [flexibleId_eq, flexibleId_eq] at ids
      obtain ⟨sources, -⟩ := colonless_append_inj a_source b_source ids
      rw [sources] at h
      obtain ⟨triggers, firsts⟩ := flexibleId_inj h
      exact ⟨sources, triggers, congrArg some firsts⟩

end AttributionReporting
