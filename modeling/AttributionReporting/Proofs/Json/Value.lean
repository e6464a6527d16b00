import AttributionReporting.Json.Value
import AttributionReporting.Proofs.Json.Decode

/-!
# The value of a document

A list has a value when each of its items has one, and an object when each of its names is text and
each of its members has one (`ofItems?_eq_some_iff`, `ofMembers?_eq_some_iff`). So a document whose
value is a text, or a list of texts, is just one that can be read as such.
-/

namespace AttributionReporting.Value

variable {room : Nat} {j : Json}

theorem ofItems?_eq_some_iff {items : List Json} {values : List Value} :
    ofItems? room items = some values ↔
      List.Forall₂ (fun item value => ofJson? room item = some value) items values := by
  rw [← mapM_eq_some_iff]
  induction items generalizing values with
  | nil => rfl
  | cons item items ih =>
    simp only [ofItems?, List.mapM_cons, Option.bind_eq_bind, Option.bind_eq_some_iff, ih]
    rfl

theorem ofMembers?_eq_some_iff {members : List (List Json.TextUnit × Json)}
    {entries : List (String × Value)} :
    ofMembers? room members = some entries ↔
      List.Forall₂ (fun member entry =>
        Json.decode? member.1 = some entry.1 ∧ ofJson? room member.2 = some entry.2)
        members entries := by
  induction members generalizing entries with
  | nil => simp [ofMembers?, eq_comm]
  | cons member members ih =>
    obtain ⟨name, item⟩ := member
    simp only [ofMembers?, Option.bind_eq_bind, Option.bind_eq_some_iff, ih,
      List.forall₂_cons_left_iff, Option.some_inj]
    constructor
    · rintro ⟨name, named, value, read, rest, members, rfl⟩
      exact ⟨(name, value), rest, ⟨named, read⟩, members, rfl⟩
    · rintro ⟨⟨name, value⟩, rest, ⟨named, read⟩, members, rfl⟩
      exact ⟨name, named, value, read, rest, members, rfl⟩

theorem map_fst_of_ofMembers? {members : List (List Json.TextUnit × Json)}
    {entries : List (String × Value)} (h : ofMembers? room members = some entries) :
    entries.map (·.1) = members.filterMap fun member => Json.decode? member.1 := by
  have read := ofMembers?_eq_some_iff.1 h
  clear h
  induction read with
  | nil => rfl
  | cons first _ ih => rw [List.map_cons, List.filterMap_cons, first.1, ih]

theorem ofNumber?_eq_some {n : Json.Number} {v : Value} (h : ofNumber? n = some v) :
    (∃ i, v = .integer i) ∨ ∃ x, v = .float x := by
  unfold ofNumber? at h
  split at h
  · next i _ => exact .inl ⟨i, (Option.some.inj h).symm⟩
  · obtain ⟨x, -, rfl⟩ := Option.map_eq_some_iff.1 h
    exact .inr ⟨x, rfl⟩

/-- Just the strings have text as their value. -/
theorem ofJson?_eq_string_iff {s : String} :
    ofJson? room j = some (.string s) ↔ j.string? = some s := by
  cases j with
  | number n =>
    have other : ofNumber? n ≠ some (.string s) := fun h => by
      simpa using ofNumber?_eq_some h
    simpa [ofJson?, Json.string?] using other
  | _ => simp [ofJson?, Json.string?]

/-- Just the lists of strings have a list of texts as their value. -/
theorem ofJson?_eq_strings_iff {values : List String} :
    ofJson? (room + 1) j = some (.array (values.map .string)) ↔
      j.list? Json.string? = some values := by
  rw [Json.list?_eq_some_iff]
  cases j with
  | array items =>
    simp [ofJson?, ofItems?_eq_some_iff, List.forall₂_map_right_iff, ofJson?_eq_string_iff]
  | number n =>
    have other : ofNumber? n ≠ some (.array (values.map .string)) := fun h => by
      simpa using ofNumber?_eq_some h
    simpa [ofJson?] using other
  | _ => simp [ofJson?]

end AttributionReporting.Value
