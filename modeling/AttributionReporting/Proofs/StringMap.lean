import AttributionReporting.StringMap
import Mathlib.Data.List.Induction
import Mathlib.Data.List.Nodup
import Mathlib.Data.List.Perm.Basic

/-!
# What a map holds

A map is determined by what it holds under each key (`StringMap.ext_get?`), so that most laws are
read off `get?`. The last entry of a key wins in `ofList`, and when no key is repeated all entries
are kept (`get?_ofList_of_nodup`). Changing what is held commutes with building the map
(`ofList_map`).
-/

namespace AttributionReporting

variable {α β : Type}

theorem KeyAscending.nodup {entries : List (String × α)} (h : KeyAscending entries) :
    (entries.map (·.1)).Nodup := by
  refine List.pairwise_map.2 (List.Pairwise.imp (fun {a b} lt => ?_) h)
  rintro eq
  exact String.lt_irrefl b.1 (eq ▸ lt)

theorem lookup_map (f : α → β) (k : String) (entries : List (String × α)) :
    (entries.map fun e => (e.1, f e.2)).lookup k = (entries.lookup k).map f := by
  induction entries with
  | nil => rfl
  | cons e rest ih =>
    obtain ⟨q, w⟩ := e
    rw [List.map_cons, List.lookup_cons, List.lookup_cons, ih]
    cases k == q with
    | true => rfl
    | false => rfl

namespace StringMap

variable {m m' : StringMap α} {k : String} {v : α}

/-- Two maps are the same when they hold the same under every key. -/
theorem ext_get? (same : ∀ k, m.get? k = m'.get? k) : m = m' := by
  have entries (e : String × α) : e ∈ m.entries ↔ e ∈ m'.entries := by
    rw [← get?_eq_some_iff, ← get?_eq_some_iff, same]
  have perm : m.entries.Perm m'.entries :=
    (List.perm_ext_iff_of_nodup m.ascending.nodup.of_map m'.ascending.nodup.of_map).2 entries
  refine StringMap.ext (perm.eq_of_pairwise (fun a b _ _ lt gt => ?_) m.ascending m'.ascending)
  exact absurd (String.lt_trans lt gt) (String.lt_irrefl _)

theorem insert_insert (m : StringMap α) (k : String) (v w : α) :
    (m.insert k v).insert k w = m.insert k w := by
  refine ext_get? fun other => ?_
  simp only [get?_insert]
  split
  · rfl
  · rfl

theorem get?_map (f : α → β) (m : StringMap α) (k : String) :
    (m.map f).get? k = (m.get? k).map f :=
  lookup_map f k m.entries

theorem map_insert (f : α → β) (m : StringMap α) (k : String) (v : α) :
    (m.insert k v).map f = (m.map f).insert k (f v) := by
  refine ext_get? fun other => ?_
  rw [get?_map, get?_insert, get?_insert, get?_map, apply_ite (Option.map f), Option.map_some]

/-! ## Maps from entries -/

theorem ofList_concat (entries : List (String × α)) (k : String) (v : α) :
    ofList (entries ++ [(k, v)]) = (ofList entries).insert k v := by
  simp [ofList]

theorem ofList_map (f : α → β) (entries : List (String × α)) :
    ofList (entries.map fun e => (e.1, f e.2)) = (ofList entries).map f := by
  induction entries using List.reverseRecOn with
  | nil => rfl
  | append_singleton entries e ih =>
    rw [List.map_append, List.map_singleton, ofList_concat, ih, ofList_concat, map_insert]

theorem get?_ofList_of_nodup {entries : List (String × α)} (distinct : (entries.map (·.1)).Nodup) :
    (ofList entries).get? k = some v ↔ (k, v) ∈ entries := by
  induction entries using List.reverseRecOn with
  | nil => simp [ofList]
  | append_singleton entries e ih =>
    rw [List.map_append, List.map_singleton, List.nodup_append_comm, List.singleton_append,
      List.nodup_cons] at distinct
    obtain ⟨new, distinct⟩ := distinct
    obtain ⟨last, w⟩ := e
    rw [ofList_concat, get?_insert, List.mem_append, List.mem_singleton, Prod.mk.injEq]
    by_cases found : k = last
    · subst found
      have absent : (k, v) ∉ entries := fun mem => new (List.mem_map.2 ⟨_, mem, rfl⟩)
      simp [absent, eq_comm]
    · simp [ih distinct, found]

theorem mem_entries_ofList {entries : List (String × α)} {e : String × α}
    (distinct : (entries.map (·.1)).Nodup) : e ∈ (ofList entries).entries ↔ e ∈ entries := by
  rw [← get?_eq_some_iff, get?_ofList_of_nodup distinct]

/-- A map is made of its entries. -/
theorem ofList_entries (m : StringMap α) : ofList m.entries = m := by
  refine ext_get? fun k => Option.ext fun v => ?_
  rw [get?_ofList_of_nodup m.ascending.nodup, get?_eq_some_iff]

end StringMap

end AttributionReporting
