/-!
# Maps with string keys

`StringMap α` is a finite map from strings to `α`, kept as its entries in ascending order of the
keys (by code point, which is also the order of their UTF-8 bytes). The order is part of the type,
so two maps are equal exactly when they have the same entries (`StringMap.ext`). `insert` replaces
what a key held before (`get?_insert`), so in `ofList` the last entry of a key wins.
-/

namespace AttributionReporting

/-! ## Entry lists in key order -/

/-- Puts `v` under `k` into a list of entries in key order, in place of what `k` held before. -/
def insertEntry {α : Type} (k : String) (v : α) : List (String × α) → List (String × α)
  | [] => [(k, v)]
  | (k', v') :: rest =>
    if k < k' then (k, v) :: (k', v') :: rest
    else if k = k' then (k, v) :: rest
    else (k', v') :: insertEntry k v rest

/-- The entries stand in strictly ascending order of their keys. -/
def KeyAscending {α : Type} (entries : List (String × α)) : Prop :=
  entries.Pairwise (·.1 < ·.1)

variable {α β : Type}

theorem mem_insertEntry {k : String} {v : α} {e : String × α} {entries : List (String × α)}
    (h : e ∈ insertEntry k v entries) : e = (k, v) ∨ e ∈ entries := by
  induction entries with
  | nil => simpa [insertEntry] using h
  | cons head rest ih =>
    unfold insertEntry at h
    split at h
    · simpa using h
    · split at h
      · rcases List.mem_cons.1 h with h | h
        · exact .inl h
        · exact .inr (List.mem_cons_of_mem _ h)
      · rcases List.mem_cons.1 h with h | h
        · exact .inr (h ▸ List.mem_cons_self)
        · exact (ih h).imp id (List.mem_cons_of_mem _)

theorem KeyAscending.insertEntry {k : String} {v : α} {entries : List (String × α)}
    (h : KeyAscending entries) : KeyAscending (insertEntry k v entries) := by
  induction entries with
  | nil => exact List.pairwise_singleton _ _
  | cons head rest ih =>
    obtain ⟨first, tail⟩ := List.pairwise_cons.1 h
    unfold AttributionReporting.insertEntry
    split
    · next lt =>
      refine List.pairwise_cons.2 ⟨fun e he => ?_, h⟩
      rcases List.mem_cons.1 he with rfl | he
      · exact lt
      · exact String.lt_trans lt (first e he)
    · next ge =>
      split
      · next eq => exact List.pairwise_cons.2 ⟨fun e he => eq ▸ first e he, tail⟩
      · next ne =>
        refine List.pairwise_cons.2 ⟨fun e he => ?_, ih tail⟩
        rcases mem_insertEntry he with rfl | he
        · exact Decidable.byContradiction fun lt =>
            ne (String.le_antisymm (String.not_lt.1 lt) (String.not_lt.1 ge))
        · exact first e he

theorem KeyAscending.lookup_eq_some_iff {k : String} {v : α} {entries : List (String × α)}
    (h : KeyAscending entries) : entries.lookup k = some v ↔ (k, v) ∈ entries := by
  rw [List.lookup_eq_some_iff]
  constructor
  · rintro ⟨before, after, rfl, -⟩
    exact List.mem_append_right before List.mem_cons_self
  · intro mem
    obtain ⟨before, after, rfl⟩ := List.append_of_mem mem
    refine ⟨before, after, rfl, fun e he => ?_⟩
    have lt : e.1 < k := (List.pairwise_append.1 h).2.2 e he (k, v) List.mem_cons_self
    rw [bne_iff_ne]
    intro eq
    exact String.lt_irrefl k (eq ▸ lt)

theorem lookup_insertEntry {k k' : String} {v : α} {entries : List (String × α)} :
    (insertEntry k v entries).lookup k' =
      if k' = k then some v else entries.lookup k' := by
  induction entries with
  | nil =>
    by_cases h : k' = k
    · simp [insertEntry, h]
    · simp [insertEntry, h, List.lookup_cons, beq_eq_false_iff_ne.2 h]
  | cons head rest ih =>
    obtain ⟨q, w⟩ := head
    unfold insertEntry
    by_cases h : k' = k
    · subst h
      split
      · simp
      · split
        · simp
        · next ne => simp [List.lookup_cons, beq_eq_false_iff_ne.2 ne, ih]
    · split
      · simp [List.lookup_cons, beq_eq_false_iff_ne.2 h]
      · split
        · next eq => subst eq; simp [List.lookup_cons, beq_eq_false_iff_ne.2 h]
        · simp [List.lookup_cons, h, ih]

/-! ## The map -/

/-- A finite map from strings, as its entries in key order. -/
@[ext]
structure StringMap (α : Type) where
  /-- The entries, in key order. -/
  entries : List (String × α)
  ascending : KeyAscending entries

namespace StringMap

/-- The map without entries. -/
def empty : StringMap α := ⟨[], List.Pairwise.nil⟩

instance : Inhabited (StringMap α) := ⟨empty⟩

instance : EmptyCollection (StringMap α) := ⟨empty⟩

instance [DecidableEq α] : DecidableEq (StringMap α) := fun a b =>
  decidable_of_iff (a.entries = b.entries) StringMap.ext_iff.symm

/-- The map with `v` under `k`, whatever `k` held before. -/
def insert (m : StringMap α) (k : String) (v : α) : StringMap α :=
  ⟨insertEntry k v m.entries, m.ascending.insertEntry⟩

/-- What the map holds under `k`. -/
def get? (m : StringMap α) (k : String) : Option α := m.entries.lookup k

/-- The number of keys. -/
def size (m : StringMap α) : Nat := m.entries.length

/-- Whether the map has no key. -/
def isEmpty (m : StringMap α) : Bool := m.entries.isEmpty

/-- The map of the given entries; of two entries with one key the later wins. -/
def ofList (entries : List (String × α)) : StringMap α :=
  entries.foldl (fun m e => m.insert e.1 e.2) ∅

/-- The same keys, with `f` applied to what they hold. -/
def map (f : α → β) (m : StringMap α) : StringMap β :=
  ⟨m.entries.map fun e => (e.1, f e.2), by
    unfold KeyAscending
    exact List.pairwise_map.2 m.ascending⟩

theorem get?_eq_some_iff {m : StringMap α} {k : String} {v : α} :
    m.get? k = some v ↔ (k, v) ∈ m.entries :=
  m.ascending.lookup_eq_some_iff

@[simp]
theorem get?_empty (k : String) : (∅ : StringMap α).get? k = none := rfl

theorem get?_insert (m : StringMap α) (k k' : String) (v : α) :
    (m.insert k v).get? k' = if k' = k then some v else m.get? k' :=
  lookup_insertEntry

@[simp]
theorem get?_insert_self (m : StringMap α) (k : String) (v : α) :
    (m.insert k v).get? k = some v := by
  simp [get?_insert]

end StringMap

end AttributionReporting
