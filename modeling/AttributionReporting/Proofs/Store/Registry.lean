import AttributionReporting.Proofs.Store.Keyed
import AttributionReporting.StringMap

/-!
# Registries

A registry keeps records in a map under their ids, and beside the map the ids in the order in which
they came in. Registering an id again replaces what the map holds and leaves the order alone. While
the order has every id of the map once and every record is under its own id (`Registry.Sound`), the
records in that order change like a list of records under `upsert` and `modifyKey?`
(`Registry.Sound.listed_register`, `Registry.Sound.modifyKey?_listed`).
-/

namespace AttributionReporting

/-- Records under their ids, and the ids in the order in which they were first registered. -/
structure Registry (α : Type) where
  byId : StringMap α := ∅
  order : List String := []

namespace Registry

variable {α : Type}

/-- Puts a record under an id, at the end of the order unless the id is known. -/
def register (id : String) (a : α) (reg : Registry α) : Registry α where
  byId := reg.byId.insert id a
  order := if (reg.byId.get? id).isSome then reg.order else reg.order ++ [id]

/-- Changes the record under an id, if there is one. -/
def modify? (id : String) (f : α → α) (reg : Registry α) : Option (Registry α) :=
  (reg.byId.get? id).map fun a => { reg with byId := reg.byId.insert id (f a) }

/-- The records, in the order of the ids. -/
def listed (reg : Registry α) : List α := reg.order.filterMap reg.byId.get?

/-- The order has the ids of the map, each once, and every record is under its own id. -/
structure Sound (key : α → String) (reg : Registry α) : Prop where
  nodup : reg.order.Nodup
  mem_order_iff : ∀ id, id ∈ reg.order ↔ (reg.byId.get? id).isSome = true
  key_eq : ∀ id a, reg.byId.get? id = some a → key a = id

/-- `l` has every record with a property, each once, in the order of the ids. -/
structure Lists (key : α → String) (qualifies : α → Bool) (reg : Registry α) (l : List α) :
    Prop where
  mem_iff : ∀ a, a ∈ l ↔ (∃ id, reg.byId.get? id = some a) ∧ qualifies a = true
  nodup : l.Nodup
  inOrder : (l.map key).Sublist reg.order

variable {key : α → String} {reg reg' : Registry α} {id : String} {f : α → α} {a b : α}

/-! ## Soundness -/

theorem sound_empty : Sound key ({} : Registry α) where
  nodup := List.nodup_nil
  mem_order_iff id := by simp
  key_eq id a h := by cases h

namespace Sound

theorem exists_get? (sound : Sound key reg) (mem : id ∈ reg.order) :
    ∃ a, reg.byId.get? id = some a :=
  Option.isSome_iff_exists.1 ((sound.mem_order_iff id).1 mem)

theorem mem_order (sound : Sound key reg) (h : reg.byId.get? id = some a) : id ∈ reg.order :=
  (sound.mem_order_iff id).2 (by rw [h]; rfl)

/-- Registering adds an id to the order when it is new. -/
theorem order_register (sound : Sound key reg) (id : String) (a : α) :
    (reg.register id a).order = if id ∈ reg.order then reg.order else reg.order ++ [id] :=
  if_congr (sound.mem_order_iff id).symm rfl rfl

/-- Another record under a known id. -/
theorem insert (sound : Sound key reg) (mem : key b ∈ reg.order) :
    Sound key { reg with byId := reg.byId.insert (key b) b } where
  nodup := sound.nodup
  mem_order_iff id := by
    rw [StringMap.get?_insert]
    split_ifs with same
    · exact iff_of_true (same ▸ mem) rfl
    · exact sound.mem_order_iff id
  key_eq id a h := by
    rw [StringMap.get?_insert] at h
    split_ifs at h with same
    · cases h
      exact same.symm
    · exact sound.key_eq id a h

theorem register (sound : Sound key reg) (a : α) : Sound key (reg.register (key a) a) := by
  by_cases mem : key a ∈ reg.order
  · have same : reg.register (key a) a = { reg with byId := reg.byId.insert (key a) a } := by
      rw [Registry.register, if_pos ((sound.mem_order_iff _).1 mem)]
    rw [same]
    exact sound.insert mem
  · have order : (reg.register (key a) a).order = reg.order ++ [key a] := by
      rw [sound.order_register, if_neg mem]
    refine ⟨?_, fun id => ?_, fun id b h => ?_⟩
    · rw [order, ← List.concat_eq_append]
      exact sound.nodup.concat mem
    · rw [order, List.mem_append, List.mem_singleton, sound.mem_order_iff, Registry.register,
        StringMap.get?_insert]
      split_ifs with same
      · exact iff_of_true (.inr same) rfl
      · simp [same]
    · rw [Registry.register, StringMap.get?_insert] at h
      split_ifs at h with same
      · cases h
        exact same.symm
      · exact sound.key_eq id b h

theorem modify? (sound : Sound key reg) (same : ∀ a, key (f a) = key a)
    (h : reg.modify? id f = some reg') : Sound key reg' := by
  obtain ⟨a, found, rfl⟩ := Option.map_eq_some_iff.1 h
  have id_eq : key (f a) = id := (same a).trans (sound.key_eq id a found)
  rw [← id_eq] at found ⊢
  exact sound.insert (sound.mem_order found)

end Sound

theorem order_of_modify? (h : reg.modify? id f = some reg') : reg'.order = reg.order := by
  obtain ⟨a, -, rfl⟩ := Option.map_eq_some_iff.1 h
  rfl

/-! ## The records in order -/

namespace Sound

theorem map_listed (sound : Sound key reg) : reg.listed.map key = reg.order := by
  suffices all : ∀ ids : List String, (∀ id ∈ ids, id ∈ reg.order) →
      (ids.filterMap reg.byId.get?).map key = ids from all reg.order fun _ => id
  intro ids known
  induction ids with
  | nil => rfl
  | cons id rest ih =>
    obtain ⟨first, others⟩ := List.forall_mem_cons.1 known
    obtain ⟨a, found⟩ := sound.exists_get? first
    rw [List.filterMap_cons_some found, List.map_cons, sound.key_eq id a found, ih others]

theorem nodup_listed (sound : Sound key reg) : (reg.listed.map key).Nodup :=
  sound.map_listed ▸ sound.nodup

theorem mem_listed_iff (sound : Sound key reg) :
    a ∈ reg.listed ↔ ∃ id, reg.byId.get? id = some a := by
  unfold listed
  rw [List.mem_filterMap]
  exact ⟨fun ⟨id, _, found⟩ => ⟨id, found⟩, fun ⟨id, found⟩ => ⟨id, sound.mem_order found, found⟩⟩

theorem find?_listed (sound : Sound key reg) (id : String) :
    reg.listed.find? (key · == id) = reg.byId.get? id := by
  cases found : reg.byId.get? id with
  | none =>
    refine List.find?_eq_none.2 fun a mem same => ?_
    obtain ⟨other, held⟩ := sound.mem_listed_iff.1 mem
    rw [← sound.key_eq other a held, beq_iff_eq.1 same, found] at held
    cases held
  | some a =>
    rw [← sound.key_eq id a found]
    exact find?_of_nodup sound.nodup_listed (sound.mem_listed_iff.2 ⟨id, found⟩)

/-- Another record under a known id takes the place of the one that stood there. -/
theorem listed_insert (sound : Sound key reg) (id : String) (b : α) :
    ({ reg with byId := reg.byId.insert id b } : Registry α).listed =
      reg.listed.map fun a => if key a = id then b else a := by
  unfold listed
  rw [List.map_filterMap]
  refine List.filterMap_congr fun other mem => ?_
  obtain ⟨a, found⟩ := sound.exists_get? mem
  rw [StringMap.get?_insert, found, Option.map_some, sound.key_eq other a found]
  split_ifs <;> rfl

theorem listed_register (sound : Sound key reg) (a : α) :
    (reg.register (key a) a).listed = upsert key a reg.listed := by
  by_cases mem : key a ∈ reg.order
  -- Whether the id is known decides on either side if the record takes a place or comes last.
  · rw [upsert_of_mem sound.nodup_listed (sound.map_listed ▸ mem), ← sound.listed_insert]
    unfold listed
    rw [sound.order_register, if_pos mem]
    rfl
  · rw [upsert_of_notMem (sound.map_listed ▸ mem)]
    unfold listed
    rw [sound.order_register, if_neg mem, List.filterMap_append, Registry.register]
    congr 1
    · refine List.filterMap_congr fun id known => ?_
      rw [StringMap.get?_insert, if_neg (ne_of_mem_of_not_mem known mem)]
    · simp

theorem modifyKey?_listed (sound : Sound key reg) (id : String) (f : α → α) :
    modifyKey? key id f reg.listed = (reg.modify? id f).map listed := by
  rw [modifyKey?_of_nodup sound.nodup_listed, sound.map_listed, Registry.modify?, Option.map_map]
  cases found : reg.byId.get? id with
  | none => exact if_neg fun mem => by simpa [found] using sound.exists_get? mem
  | some a =>
    rw [if_pos (sound.mem_order found), Option.map_some, Function.comp_apply, sound.listed_insert]
    congr 1
    refine List.map_congr_left fun b mem => if_ctx_congr Iff.rfl (fun same => ?_) fun _ => rfl
    obtain ⟨other, held⟩ := sound.mem_listed_iff.1 mem
    rw [← sound.key_eq other b held, same, found] at held
    rw [Option.some.inj held]

/-- Picking from the records in order. -/
theorem lists_filter (sound : Sound key reg) (qualifies : α → Bool) :
    Lists key qualifies reg (reg.listed.filter qualifies) where
  mem_iff a := by rw [List.mem_filter, sound.mem_listed_iff]
  nodup := (sound.nodup_listed.of_map key).filter qualifies
  inOrder := by
    rw [← sound.map_listed]
    exact List.filter_sublist.map key

end Sound

end Registry

end AttributionReporting
