import AttributionReporting.Filter.Map
import AttributionReporting.Json.RoundTrip
import AttributionReporting.Proofs.Json.Value
import AttributionReporting.Proofs.StringMap
import Mathlib.Data.Set.List

/-!
# Two ways to read a filter map

Text becomes a filter map by way of a value (`FilterMap.parse`), or from the document itself
(`FilterMap.ofJson?`). What the second one takes is taken by the first one as well, with the same
map. A member of the document that a later one replaces is out of the value before the first reader
looks at it, and this is the only difference: when the document gives no name twice
(`Json.MembersDistinct`), the two agree (`readers_agree`).
-/

namespace AttributionReporting

/-- An object does not give a name twice, however the names are escaped. -/
def Json.MembersDistinct : Json → Prop
  | .object members => (members.filterMap fun member => decode? member.1).Nodup
  | _ => True

instance : DecidablePred Json.MembersDistinct
  | .object members => inferInstanceAs
    (Decidable (members.filterMap fun member => Json.decode? member.1).Nodup)
  | .null | .bool _ | .number _ | .string _ | .array _ => .isTrue trivial

/-- A list of texts as a value. -/
def Value.strings (texts : List String) : Value := .array (texts.map .string)

/-! ## Successful steps -/

section

variable {α β ε ε' : Type}

theorem bind_eq_ok_iff {x : Except ε α} {f : α → Except ε β} {b : β} :
    x >>= f = .ok b ↔ ∃ a, x = .ok a ∧ f a = .ok b := by
  cases x with
  | error e => simp [bind, Except.bind]
  | ok a => simp [bind, Except.bind]

theorem map_eq_ok_iff {x : Except ε α} {f : α → β} {b : β} :
    x.map f = .ok b ↔ ∃ a, x = .ok a ∧ f a = b := by
  cases x with
  | error e => simp [Except.map]
  | ok a => simp [Except.map]

theorem mapError_eq_ok_iff {x : Except ε α} {f : ε → ε'} {a : α} :
    x.mapError f = .ok a ↔ x = .ok a := by
  cases x with
  | error e => simp [Except.mapError]
  | ok a => simp [Except.mapError]

/-- A list is taken when each of its items is. -/
theorem mapM_eq_ok_iff {read : β → Except ε α} {items : List β} {l : List α} :
    items.mapM read = .ok l ↔ List.Forall₂ (fun item a => read item = .ok a) items l := by
  induction items generalizing l with
  | nil => simp [pure, Except.pure, eq_comm]
  | cons item items ih =>
    simp only [List.mapM_cons, bind_eq_ok_iff, List.forall₂_cons_left_iff, ih]
    constructor
    · rintro ⟨a, first, rest, read, eq⟩
      exact ⟨a, rest, first, read, (Except.ok.inj eq).symm⟩
    · rintro ⟨a, rest, first, read, rfl⟩
      exact ⟨a, first, rest, read, rfl⟩

end

namespace FilterMap

variable {j : Json} {v : Value} {s : String} {m : FilterMap}

/-! ## By way of a value -/

theorem valuesOfValue_eq_ok_iff {key : String} {values : List String} :
    valuesOfValue key v = .ok values ↔ v = .strings values := by
  cases v with
  | array items =>
    rw [valuesOfValue, mapM_eq_ok_iff, Value.strings, Value.array.injEq, ← List.forall₂_eq_eq_eq,
      List.forall₂_map_right_iff]
    constructor
    · refine fun taken => taken.imp fun v s text => ?_
      split at text
      · rw [Except.ok.inj text]
      · cases text
    · rintro texts
      exact texts.imp fun v s text => by rw [text]
  | _ => simp [valuesOfValue, Value.strings]

/-- A value is a filter map when it is an object of lists of texts. -/
theorem ofValue_eq_ok_iff :
    ofValue v = .ok m ↔
      ∃ entries : List (String × List String),
        v = .object (entries.map fun e => (e.1, .strings e.2)) ∧ StringMap.ofList entries = m := by
  cases v with
  | object members =>
    have member (held : String × Value) (e : String × List String) :
        (valuesOfValue held.1 held.2).map (fun values => (held.1, values)) = .ok e ↔
          held = (e.1, .strings e.2) := by
      simp only [map_eq_ok_iff, valuesOfValue_eq_ok_iff]
      constructor
      · rintro ⟨values, eq, rfl⟩
        exact Prod.ext rfl eq
      · rintro rfl
        exact ⟨_, rfl, rfl⟩
    simp only [ofValue, bind_eq_ok_iff, mapM_eq_ok_iff, member, Except.ok.injEq, Value.object.injEq,
      ← List.forall₂_eq_eq_eq, List.forall₂_map_right_iff]
  | _ => simp [ofValue]

theorem parse_eq_ok_iff :
    parse s = .ok m ↔ ∃ v, Wire.parseValue s = .ok v ∧ ofValue v = .ok m := by
  simp only [parse, bind_eq_ok_iff, mapError_eq_ok_iff]

/-- The value of a document that is read as a filter map. -/
theorem value_of_ofJson? (read : ofJson? j = some m) :
    Value.ofJson? Value.maxNesting j = some (.object (m.map .strings).entries) := by
  obtain ⟨members, entries, rfl, same, rfl⟩ := Json.map?_eq_some_iff.1 read
  have values : Value.ofMembers? (Value.maxNesting - 1) members =
      some (entries.map fun e => (e.1, .strings e.2)) := by
    rw [Value.ofMembers?_eq_some_iff, List.forall₂_map_right_iff]
    exact same.imp fun member entry read => ⟨read.1, Value.ofJson?_eq_strings_iff.2 read.2⟩
  rw [Value.ofJson?, if_neg (by decide), values, Option.map_some, StringMap.ofList_map]

theorem ofValue_entries (m : FilterMap) : ofValue (.object (m.map .strings).entries) = .ok m :=
  ofValue_eq_ok_iff.2 ⟨m.entries, rfl, m.ofList_entries⟩

/-- What is read from the document itself is read by way of a value. -/
theorem parse_of_parseDocument (read : Wire.parseDocument ofJson? s = .ok m) :
    parse s = .ok m := by
  obtain ⟨j, document, read⟩ := Wire.parseDocument_eq_ok_iff.1 read
  have value : Wire.parseValue s = .ok (.object (m.map .strings).entries) :=
    Wire.parseDocument_eq_ok_iff.2 ⟨j, document, value_of_ofJson? read⟩
  exact parse_eq_ok_iff.2 ⟨_, value, ofValue_entries m⟩

/-- Without replaced members, a document whose value is a filter map is read as one. -/
theorem exists_ofJson?_eq_some (distinct : j.MembersDistinct)
    (value : Value.ofJson? Value.maxNesting j = some v) (read : ofValue v = .ok m) :
    ∃ m', ofJson? j = some m' := by
  obtain ⟨entries, rfl, rfl⟩ := ofValue_eq_ok_iff.1 read
  cases j with
  | object members =>
    rw [Value.ofJson?, if_neg (by decide), Option.map_eq_some_iff] at value
    obtain ⟨named, found, same⟩ := value
    have same : (StringMap.ofList named).entries = entries.map fun e => (e.1, .strings e.2) :=
      Value.object.inj same
    have names := Value.map_fst_of_ofMembers? found
    have found := Value.ofMembers?_eq_some_iff.1 found
    have kept (e : String × Value) (mem : e ∈ named) :
        e ∈ Set.range fun e : String × List String => (e.1, Value.strings e.2) := by
      have held := (StringMap.mem_entries_ofList (names ▸ distinct)).2 mem
      rw [same] at held
      obtain ⟨own, -, eq⟩ := List.mem_map.1 held
      exact ⟨own, eq⟩
    obtain ⟨own, rfl⟩ := (Set.range_list_map _).ge kept
    refine ⟨_, Json.map?_eq_some_iff.2 ⟨members, own, rfl, ?_, rfl⟩⟩
    rw [List.forall₂_map_right_iff] at found
    exact found.imp fun member entry read =>
      ⟨read.1, Value.ofJson?_eq_strings_iff.1 read.2⟩
  | number n =>
    rcases Value.ofNumber?_eq_some value with ⟨i, eq⟩ | ⟨x, eq⟩
    · cases eq
    · cases eq
  | _ => simp [Value.ofJson?] at value

/-! ## Both readers -/

theorem ofJson?_toJson (m : FilterMap) : ofJson? m.toJson = some m := by
  refine Json.map?_eq_some_iff.2 ⟨_, m.entries, rfl, ?_, m.ofList_entries⟩
  rw [List.forall₂_map_left_iff, List.forall₂_map_left_iff, List.forall₂_same]
  exact fun e _ => ⟨Json.decode?_unitsOf e.1, Json.list?_map fun s _ => Json.string?_text s⟩

/-- What is read from the document itself is read by way of a value as well, and the other way
round when the document gives no name twice; and both take back a filter map from its text. -/
theorem readers_agree (s : String) (m : FilterMap) :
    (Wire.parseDocument ofJson? s = .ok m → parse s = .ok m) ∧
      ((∀ j, Json.parse? s = some j → j.MembersDistinct) →
        (Wire.parseDocument ofJson? s = .ok m ↔ parse s = .ok m)) ∧
      Wire.parseDocument ofJson? m.toJson.render = .ok m ∧ parse m.toJson.render = .ok m := by
  have written : Wire.parseDocument ofJson? m.toJson.render = .ok m :=
    Wire.parseDocument_eq_ok_iff.2 ⟨m.toJson, Json.parse?_render _, ofJson?_toJson m⟩
  refine ⟨parse_of_parseDocument, fun distinct => ⟨parse_of_parseDocument, fun taken => ?_⟩,
    written, parse_of_parseDocument written⟩
  obtain ⟨v, value, read⟩ := parse_eq_ok_iff.1 taken
  obtain ⟨j, document, value⟩ := Wire.parseDocument_eq_ok_iff.1 value
  obtain ⟨m', direct⟩ := exists_ofJson?_eq_some (distinct j document) value read
  have direct := Wire.parseDocument_eq_ok_iff.2 ⟨j, document, direct⟩
  -- The map that the direct reader takes is the one that the other reader takes of the same text.
  have same := parse_of_parseDocument direct
  rw [taken, Except.ok.injEq] at same
  rw [same, direct]

/-- An object whose two names are not in order and one of them has an escape. -/
def sampleText : String := "\x7b\"product\": [\"1234\", \"2345\"], \"g\\u0065o\": []\x7d"

/-- The filter map of the sample text. -/
def sampleMap : FilterMap := StringMap.ofList [("product", ["1234", "2345"]), ("geo", [])]

/-- Both readers take the sample text, and both take back its filter map. -/
theorem readers_agree_sample :
    Wire.parseDocument ofJson? sampleText = .ok sampleMap ∧ parse sampleText = .ok sampleMap ∧
      Wire.parseDocument ofJson? sampleMap.toJson.render = .ok sampleMap ∧
      parse sampleMap.toJson.render = .ok sampleMap := by
  have read : (Json.parse? sampleText).bind ofJson? = some sampleMap := by decide +kernel
  have distinct : (Json.parse? sampleText).all fun j => decide j.MembersDistinct := by
    decide +kernel
  have direct : Wire.parseDocument ofJson? sampleText = .ok sampleMap :=
    Wire.parseDocument_eq_ok_iff.2 (Option.bind_eq_some_iff.1 read)
  obtain ⟨-, agree, written⟩ := readers_agree sampleText sampleMap
  have same := agree fun j found => of_decide_eq_true ((Option.all_eq_true _ _).1 distinct j found)
  exact ⟨direct, same.1 direct, written⟩

/-- A member that a later one replaces need not be a list of strings for the value. -/
example :
    (parse "\x7b\"a\": 1, \"a\": [\"x\"]\x7d").toOption =
        some (StringMap.ofList [("a", ["x"])]) ∧
      (Wire.parseDocument ofJson? "\x7b\"a\": 1, \"a\": [\"x\"]\x7d").toOption = none := by
  decide +kernel

end FilterMap

end AttributionReporting
