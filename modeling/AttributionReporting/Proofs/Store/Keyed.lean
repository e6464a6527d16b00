import AttributionReporting.Store.Records
import Mathlib.Data.List.Nodup

/-!
# Records with distinct keys

While the keys of a list of records are distinct, taking out the record with a key filters the list
(`removeKey?_of_nodup`), changing it maps the list (`modifyKey?_of_nodup`), and putting in a record
with a new key appends it (`upsert_of_notMem`). The keys stay distinct. Whether they are distinct or
not, some of the records change by themselves when all those with the key are among them
(`modifyKey?_filter`, `removeKey?_filter`), and stay as they are when none is.
-/

namespace AttributionReporting

variable {α : Type} {key : α → String} {k : String} {l : List α}

theorem removeKey?_of_nodup (nodup : (l.map key).Nodup) :
    removeKey? key k l = if k ∈ l.map key then some (l.filter (key · ≠ k)) else none := by
  induction l with
  | nil => rfl
  | cons a rest ih =>
    obtain ⟨fresh, nodup⟩ := List.nodup_cons.1 nodup
    unfold removeKey?
    by_cases h : key a = k
    · have others : rest.filter (key · ≠ k) = rest := by
        refine List.filter_eq_self.2 fun b hb => decide_eq_true fun eq => fresh ?_
        rw [h, ← eq]
        exact List.mem_map_of_mem hb
      rw [if_pos h, if_pos (by simp [h]), List.filter_cons_of_neg (by simp [h]), others]
    · rw [if_neg h, ih nodup, List.filter_cons_of_pos (by simp [h])]
      simp only [List.map_cons, List.mem_cons, Ne.symm h, false_or]
      split_ifs <;> rfl

theorem modifyKey?_of_nodup {f : α → α} (nodup : (l.map key).Nodup) :
    modifyKey? key k f l =
      if k ∈ l.map key then some (l.map fun a => if key a = k then f a else a) else none := by
  induction l with
  | nil => rfl
  | cons a rest ih =>
    obtain ⟨fresh, nodup⟩ := List.nodup_cons.1 nodup
    unfold modifyKey?
    by_cases h : key a = k
    · have others : (rest.map fun b => if key b = k then f b else b) = rest := by
        refine (List.map_congr_left fun b hb => if_neg fun eq => fresh ?_).trans (List.map_id rest)
        rw [h, ← eq]
        exact List.mem_map_of_mem hb
      rw [if_pos h, if_pos (by simp [h]), List.map_cons, if_pos h, others]
    · rw [if_neg h, ih nodup]
      simp only [List.map_cons, List.mem_cons, Ne.symm h, false_or, h, if_false]
      split_ifs <;> rfl

/-- Changing a record is the same before and after what leaves its key and the change alone. -/
theorem modifyKey?_map {f g : α → α} (same : ∀ a, key (g a) = key a)
    (commutes : ∀ a, f (g a) = g (f a)) :
    modifyKey? key k f (l.map g) = (modifyKey? key k f l).map (List.map g) := by
  induction l with
  | nil => rfl
  | cons a rest ih =>
    rw [List.map_cons, modifyKey?, modifyKey?, same, ih]
    split_ifs with found
    · rw [commutes]
      rfl
    · simp only [Option.map_map]
      rfl

/-- Taking out the record at the first position with the key. -/
theorem removeKey?_eq_eraseIdx :
    removeKey? key k l = (l.findIdx? (key · == k)).map l.eraseIdx := by
  induction l with
  | nil => rfl
  | cons a rest ih =>
    rw [removeKey?, List.findIdx?_cons, ih, Option.map_map]
    by_cases found : key a = k
    · simp [found]
    · simp only [found, beq_iff_eq, if_false, Option.map_map]
      rfl

theorem removeKey?_append {front : List α} (notMem : k ∉ front.map key) :
    removeKey? key k (front ++ l) = (removeKey? key k l).map (front ++ ·) := by
  induction front with
  | nil => exact Option.map_id'.symm
  | cons a rest ih =>
    rw [List.map_cons, List.mem_cons, not_or] at notMem
    rw [List.cons_append, removeKey?, if_neg (Ne.symm notMem.1), ih notMem.2, Option.map_map]
    rfl

/-- Among distinct keys, exactly one record is taken out, and the others keep their order. -/
theorem removeKey?_eq_some_iff {l' : List α} (nodup : (l.map key).Nodup) :
    removeKey? key k l = some l' ↔
      ∃ before a after, l = before ++ a :: after ∧ key a = k ∧
        k ∉ (before ++ after).map key ∧ l' = before ++ after := by
  constructor
  · intro h
    rw [removeKey?_of_nodup nodup] at h
    split_ifs at h with mem
    cases h
    obtain ⟨a, held, rfl⟩ := List.mem_map.1 mem
    obtain ⟨before, after, rfl⟩ := List.append_of_mem held
    rw [List.map_append, List.map_cons, List.nodup_middle, List.nodup_cons, ← List.map_append]
      at nodup
    refine ⟨before, a, after, rfl, rfl, nodup.1, ?_⟩
    rw [List.filter_append, List.filter_cons_of_neg (by simp), ← List.filter_append]
    refine List.filter_eq_self.2 fun b hb => decide_eq_true fun same => nodup.1 ?_
    rw [← same]
    exact List.mem_map_of_mem hb
  · rintro ⟨before, a, after, rfl, rfl, fresh, rfl⟩
    rw [List.map_append, List.mem_append, not_or] at fresh
    rw [removeKey?_append fresh.1, removeKey?, if_pos rfl, Option.map_some]

/-- What a change does not touch stays as it was. -/
theorem map_of_modifyKey? {β : Type} {f : α → α} {g : α → β} {l' : List α}
    (h : modifyKey? key k f l = some l') (same : ∀ a ∈ l, key a = k → g (f a) = g a) :
    l'.map g = l.map g := by
  induction l generalizing l' with
  | nil => cases h
  | cons a rest ih =>
    unfold modifyKey? at h
    obtain ⟨first, others⟩ := List.forall_mem_cons.1 same
    split_ifs at h with found
    · cases h
      rw [List.map_cons, List.map_cons, first found]
    · obtain ⟨rest', hr, rfl⟩ := Option.map_eq_some_iff.1 h
      rw [List.map_cons, List.map_cons, ih hr others]

theorem upsert_of_notMem {a : α} (h : key a ∉ l.map key) : upsert key a l = l ++ [a] := by
  induction l with
  | nil => rfl
  | cons b rest ih =>
    rw [List.map_cons, List.mem_cons, not_or] at h
    rw [upsert, if_neg (Ne.symm h.1), ih h.2, List.cons_append]

/-- Where there is a record with the key, putting one in changes that record. -/
theorem modifyKey?_eq_upsert {a : α} (h : key a ∈ l.map key) :
    modifyKey? key (key a) (fun _ => a) l = some (upsert key a l) := by
  induction l with
  | nil => cases h
  | cons b rest ih =>
    rw [modifyKey?, upsert]
    split_ifs with same
    · rfl
    · rw [List.map_cons, List.mem_cons] at h
      rw [ih (h.resolve_left (Ne.symm same)), Option.map_some]

theorem upsert_of_mem {a : α} (nodup : (l.map key).Nodup) (h : key a ∈ l.map key) :
    upsert key a l = l.map fun b => if key b = key a then a else b := by
  have changed := modifyKey?_eq_upsert h
  rw [modifyKey?_of_nodup nodup, if_pos h] at changed
  exact (Option.some.inj changed).symm

theorem nodup_append_singleton {a : α} (fresh : key a ∉ l.map key) (nodup : (l.map key).Nodup) :
    ((l ++ [a]).map key).Nodup := by
  rw [List.map_append, List.map_singleton, ← List.concat_eq_append]
  exact nodup.concat fresh

theorem map_upsert_of_mem {a : α} (h : key a ∈ l.map key) :
    (upsert key a l).map key = l.map key := by
  induction l with
  | nil => cases h
  | cons b rest ih =>
    unfold upsert
    split_ifs with same
    · rw [List.map_cons, List.map_cons, same]
    · rw [List.map_cons, List.mem_cons] at h
      rw [List.map_cons, List.map_cons, ih (h.resolve_left (Ne.symm same))]

theorem nodup_upsert (a : α) (nodup : (l.map key).Nodup) : ((upsert key a l).map key).Nodup := by
  by_cases h : key a ∈ l.map key
  · rwa [map_upsert_of_mem h]
  · rw [upsert_of_notMem h]
    exact nodup_append_singleton h nodup

theorem nodup_modifyKey? {f : α → α} {l' : List α} (same : ∀ a, key (f a) = key a)
    (h : modifyKey? key k f l = some l') (nodup : (l.map key).Nodup) : (l'.map key).Nodup := by
  rwa [map_of_modifyKey? h fun a _ _ => same a]

theorem nodup_removeKey? {l' : List α} (h : removeKey? key k l = some l')
    (nodup : (l.map key).Nodup) : (l'.map key).Nodup := by
  rw [removeKey?_of_nodup nodup] at h
  split_ifs at h
  cases h
  exact nodup.sublist (List.filter_sublist.map key)

/-- Changing the records with several keys. -/
theorem eq_of_foldlM_modifyKey? {f : α → α} {keys : List String} {l' : List α}
    (same : ∀ a, key (f a) = key a) (again : ∀ a, f (f a) = f a) (nodup : (l.map key).Nodup)
    (h : keys.foldlM (fun l k => modifyKey? key k f l) l = some l') :
    l' = l.map fun a => if key a ∈ keys then f a else a := by
  induction keys generalizing l with
  | nil =>
    cases h
    simp only [List.not_mem_nil, if_false, List.map_id']
  | cons k rest ih =>
    rw [List.foldlM_cons] at h
    obtain ⟨l₁, first, h⟩ := Option.bind_eq_some_iff.1 h
    rw [ih (nodup_modifyKey? same first nodup) h]
    rw [modifyKey?_of_nodup nodup] at first
    split_ifs at first
    cases first
    rw [List.map_map]
    apply List.map_congr_left
    intro a _
    rw [Function.comp_apply]
    by_cases found : key a = k
    · have mem : key a ∈ k :: rest := found ▸ List.mem_cons_self
      rw [if_pos found, same, again, ite_self, if_pos mem]
    · rw [if_neg found]
      simp only [List.mem_cons, found, false_or]

theorem find?_of_nodup {a : α} (nodup : (l.map key).Nodup) (mem : a ∈ l) :
    l.find? (key · == key a) = some a := by
  cases found : l.find? (key · == key a) with
  | none => exact absurd (beq_self_eq_true (key a)) (List.find?_eq_none.1 found a mem)
  | some b =>
    have same := beq_iff_eq.1 (List.find?_some (p := (key · == key a)) found)
    rw [List.inj_on_of_nodup_map nodup (List.mem_of_find?_eq_some found) mem same]

/-! ## Some of the records -/

section

variable {p : α → Bool} {f : α → α} {l' : List α}

theorem notMem_map_filter_iff : k ∉ (l.filter p).map key ↔ ∀ a ∈ l, key a = k → p a = false := by
  simp only [List.mem_map, List.mem_filter, not_exists, not_and]
  exact ⟨fun h a mem found => by_contra fun holds => h a ⟨mem, by simpa using holds⟩ found,
    fun h a ⟨mem, holds⟩ found => Bool.false_ne_true ((h a mem found).symm.trans holds)⟩

theorem map_filter_map_cons (a : α) (o : Option (List α)) :
    (o.map (a :: ·)).map (List.filter p) =
      if p a then (o.map (List.filter p)).map (a :: ·) else o.map (List.filter p) := by
  cases o with
  | none => split_ifs <;> rfl
  | some rest =>
    simp only [Option.map_some, List.filter_cons]
    split_ifs <;> rfl

theorem modifyKey?_filter (same : ∀ a, p (f a) = p a) (mine : ∀ a ∈ l, key a = k → p a = true) :
    modifyKey? key k f (l.filter p) = (modifyKey? key k f l).map (List.filter p) := by
  induction l with
  | nil => rfl
  | cons a rest ih =>
    obtain ⟨first, others⟩ := List.forall_mem_cons.1 mine
    by_cases found : key a = k
    · rw [List.filter_cons_of_pos (first found), modifyKey?, modifyKey?, if_pos found,
        if_pos found, Option.map_some, List.filter_cons_of_pos ((same a).trans (first found))]
    · have later (rest : List α) :
          modifyKey? key k f (a :: rest) = (modifyKey? key k f rest).map (a :: ·) :=
        if_neg found
      rw [later, map_filter_map_cons, ← ih others, List.filter_cons]
      split_ifs
      · exact later _
      · rfl

theorem filter_of_modifyKey? (h : modifyKey? key k f l = some l') (same : ∀ a, p (f a) = p a)
    (others : ∀ a ∈ l, key a = k → p a = false) : l'.filter p = l.filter p := by
  induction l generalizing l' with
  | nil => cases h
  | cons a rest ih =>
    obtain ⟨first, later⟩ := List.forall_mem_cons.1 others
    unfold modifyKey? at h
    split_ifs at h with found
    · cases h
      rw [List.filter_cons_of_neg (by simp [same, first found]),
        List.filter_cons_of_neg (by simp [first found])]
    · obtain ⟨rest', changed, rfl⟩ := Option.map_eq_some_iff.1 h
      rw [List.filter_cons, List.filter_cons, ih changed later]

theorem removeKey?_filter (mine : ∀ a ∈ l, key a = k → p a = true) :
    removeKey? key k (l.filter p) = (removeKey? key k l).map (List.filter p) := by
  induction l with
  | nil => rfl
  | cons a rest ih =>
    obtain ⟨first, others⟩ := List.forall_mem_cons.1 mine
    by_cases found : key a = k
    · rw [List.filter_cons_of_pos (first found), removeKey?, removeKey?, if_pos found,
        if_pos found, Option.map_some]
    · have later (rest : List α) :
          removeKey? key k (a :: rest) = (removeKey? key k rest).map (a :: ·) :=
        if_neg found
      rw [later, map_filter_map_cons, ← ih others, List.filter_cons]
      split_ifs
      · exact later _
      · rfl

theorem filter_of_removeKey? (h : removeKey? key k l = some l')
    (others : ∀ a ∈ l, key a = k → p a = false) : l'.filter p = l.filter p := by
  induction l generalizing l' with
  | nil => cases h
  | cons a rest ih =>
    obtain ⟨first, later⟩ := List.forall_mem_cons.1 others
    unfold removeKey? at h
    split_ifs at h with found
    · cases h
      rw [List.filter_cons_of_neg (by simp [first found])]
    · obtain ⟨rest', changed, rfl⟩ := Option.map_eq_some_iff.1 h
      rw [List.filter_cons, List.filter_cons, ih changed later]

end

end AttributionReporting
