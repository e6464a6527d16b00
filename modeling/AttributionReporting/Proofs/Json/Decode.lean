import AttributionReporting.Wire.Choice
import AttributionReporting.Wire.Document
import AttributionReporting.Wire.Integer
import Mathlib.Data.List.Forall2
import Mathlib.Data.List.Nodup

/-!
# Decoding what was written

A decoder takes back what the writer of the same shape writes: text, whole numbers that fit their
type, doubles whose notation reads back, and lists and data that may be missing when their parts are
taken back. A record is taken back with all its members (`record?_record`) when their names are
different and known to the reader; each field is then read from the member of its name
(`required_cons`, `optional_cons`). Unsigned numbers written as text (`unsigned?_unsignedToJson`)
and names of choices (`Named.ofJson?_toJson`) come back as well. What lists and maps are read from,
whoever wrote them, is said item by item (`list?_eq_some_iff`, `map?_eq_some_iff`).
-/

namespace AttributionReporting

variable {α β γ : Type}

/-! ## Lists -/

/-- A list is read when each of its items is. -/
theorem mapM_eq_some_iff {read : β → Option α} {items : List β} {l : List α} :
    items.mapM read = some l ↔ List.Forall₂ (fun item a => read item = some a) items l := by
  induction items generalizing l with
  | nil =>
    rw [List.forall₂_nil_left_iff, List.mapM_nil, eq_comm]
    exact Option.some_inj
  | cons item items ih =>
    simp only [List.mapM_cons, List.forall₂_cons_left_iff, ← ih, Option.bind_eq_bind,
      Option.bind_eq_some_iff]
    constructor
    · rintro ⟨a, first, rest, read, eq⟩
      exact ⟨a, rest, first, read, (Option.some.inj eq).symm⟩
    · rintro ⟨a, rest, first, read, rfl⟩
      exact ⟨a, first, rest, read, rfl⟩

/-- A decoder takes back a list when it takes back each of its items. -/
theorem mapM_map_eq_some {read : β → Option α} {write : α → β} {l : List α}
    (back : ∀ a ∈ l, read (write a) = some a) : (l.map write).mapM read = some l := by
  rw [mapM_eq_some_iff, List.forall₂_map_left_iff, List.forall₂_same]
  exact back

/-- Reading a list twice over is reading each item twice over. -/
theorem mapM_bind_mapM (f : γ → Option β) (g : β → Option α) (l : List γ) :
    ((l.mapM f).bind fun items => items.mapM g) = l.mapM fun c => (f c).bind g := by
  induction l with
  | nil => rfl
  | cons c l ih =>
    simp only [List.mapM_cons, Option.bind_eq_bind, ← ih]
    cases f c with
    | none => rfl
    | some b =>
      cases l.mapM f with
      | none => simp
      | some items => exact List.mapM_cons

namespace Json

/-! ## Plain data -/

/-- The whole numbers that fit in 64 bits with a sign. -/
def FitsSigned64 (i : Int) : Prop := -0x8000000000000000 ≤ i ∧ i < 0x8000000000000000

instance (i : Int) : Decidable (FitsSigned64 i) := inferInstanceAs (Decidable (_ ∧ _))

@[simp]
theorem string?_text (s : String) : (text s).string? = some s := decode?_unitsOf s

theorem integer?_integer {i : Int} (lower : -0x8000000000000000 ≤ i) (upper : i < UInt64.size) :
    (integer i).integer? = some i := by
  have size : (UInt64.size : Int) = 0x10000000000000000 := rfl
  have digits : (⟨decide (i < 0), i.natAbs, [], none⟩ : Number).isInteger = true := rfl
  rw [integer, integer?, Number.toInteger?, if_pos digits]
  by_cases negative : i < 0
  · have small : ¬ (i.natAbs = 0 ∨ 0x8000000000000000 < i.natAbs) := by omega
    have abs : -(i.natAbs : Int) = i := by omega
    simp only [negative, decide_true, if_true, if_neg small, abs]
  · have small : i.natAbs < UInt64.size := by omega
    have abs : (i.natAbs : Int) = i := by omega
    simp only [negative, decide_false, Bool.false_eq_true, if_false, if_pos small, abs]

theorem signed64?_integer {i : Int} (fits : FitsSigned64 i) : (integer i).signed64? = some i := by
  have size : (UInt64.size : Int) = 0x10000000000000000 := rfl
  obtain ⟨lower, upper⟩ := fits
  rw [signed64?, integer?_integer lower (by omega), Option.bind_some, toSigned64?,
    if_pos ⟨lower, upper⟩]

theorem toUInt64?_toNat (n : UInt64) : toUInt64? n.toNat = some n := by
  have upper : (n.toNat : Int) < UInt64.size := Int.ofNat_lt.2 n.toNat_lt_size
  rw [toUInt64?, if_pos ⟨Int.natCast_nonneg _, upper⟩, Int.toNat_natCast, UInt64.ofNat_toNat]

@[simp]
theorem uint64?_integer (n : UInt64) : (integer n.toNat).uint64? = some n := by
  have upper : (n.toNat : Int) < UInt64.size := Int.ofNat_lt.2 n.toNat_lt_size
  rw [uint64?, integer?_integer (by omega) upper, Option.bind_some, toUInt64?_toNat]

@[simp]
theorem uint32?_integer (n : UInt32) : (integer n.toNat).uint32? = some n := by
  have upper : (n.toNat : Int) < UInt32.size := Int.ofNat_lt.2 n.toNat_lt_size
  have size : UInt32.size < UInt64.size := by decide
  rw [uint32?, integer?_integer (by omega) (by omega), Option.bind_some, toUInt32?,
    if_pos ⟨Int.natCast_nonneg _, upper⟩, Int.toNat_natCast, UInt32.ofNat_toNat]

theorem float?_float {x : Float} (finite : x.isFinite = true)
    (reread : (Number.ofFloat x).toFloat? = some x) : (float x).float? = some x := by
  rw [float, if_pos finite, float?, reread]

/-! ## Structured data -/

theorem list?_map {item? : Json → Option α} {write : α → Json} {l : List α}
    (back : ∀ a ∈ l, item? (write a) = some a) :
    (array (l.map write)).list? item? = some l :=
  mapM_map_eq_some back

theorem list?_eq_some_iff {item? : Json → Option α} {j : Json} {l : List α} :
    j.list? item? = some l ↔
      ∃ items, j = .array items ∧ List.Forall₂ (fun item a => item? item = some a) items l := by
  cases j with
  | array items => simp [list?, mapM_eq_some_iff]
  | _ => simp [list?]

/-- The members of a document that is read as a map, one entry for each of them. -/
theorem map?_eq_some_iff {value? : Json → Option α} {j : Json} {m : StringMap α} :
    j.map? value? = some m ↔
      ∃ members entries, j = .object members ∧
        List.Forall₂ (fun member entry =>
          decode? member.1 = some entry.1 ∧ value? member.2 = some entry.2) members entries ∧
        StringMap.ofList entries = m := by
  cases j with
  | object members =>
    have read (member : List TextUnit × Json) (entry : String × α) :
        (∃ named, (decode? member.1).map (fun name => (name, member.2)) = some named ∧
            (value? named.2).map (fun value => (named.1, value)) = some entry) ↔
          decode? member.1 = some entry.1 ∧ value? member.2 = some entry.2 := by
      simp [Prod.ext_iff]
    simp only [map?, members?, Option.bind_eq_bind, ← Option.bind_assoc, mapM_bind_mapM,
      Option.bind_eq_some_iff, mapM_eq_some_iff, Option.some_inj, object.injEq, read,
      exists_and_left, exists_eq_left']
  | _ => simp [map?, members?]

theorem nullable?_elim {present? : Json → Option α} {write : α → Json} {o : Option α}
    (back : ∀ a, o = some a → write a ≠ null ∧ present? (write a) = some a) :
    nullable? present? (o.elim null write) = some o := by
  cases o with
  | none => rfl
  | some a =>
    obtain ⟨notNull, read⟩ := back a rfl
    rw [Option.elim_some, nullable?.eq_2 _ _ notNull, read, Option.map_some]

/-! ## Records -/

theorem members?_record (members : List (String × Json)) :
    (record members).members? = some members := by
  refine mapM_map_eq_some fun m _ => ?_
  simp only [decode?_unitsOf, Option.map_some]

theorem record?_record {members : List (String × Json)} {names : List String}
    (distinct : (members.map (·.1)).Nodup) (known : ∀ m ∈ members, m.1 ∈ names) (least : Nat) :
    (record members).record? names least = some members := by
  have all : members.filter (fun member => names.contains member.1) = members :=
    List.filter_eq_self.2 fun m mem => List.contains_iff_mem.2 (known m mem)
  rw [record?.eq_2 _ _ _ (by simp [record]), members?_record]
  simp only [Option.bind_eq_bind, Option.bind_some, all, if_pos distinct]

namespace Fields

variable {fields : Fields} {name other : String} {j : Json} {absent : α} {value? : Json → Option α}

theorem required_cons :
    required ((other, j) :: fields) name value? =
      if name = other then value? j else required fields name value? := by
  rw [required, List.lookup_cons]
  by_cases own : name = other
  · simp [own]
  · rw [beq_eq_false_iff_ne.2 own, if_neg own, required]

theorem optional_cons :
    optional ((other, j) :: fields) name absent value? =
      if name = other then value? j else optional fields name absent value? := by
  rw [optional, List.lookup_cons]
  by_cases own : name = other
  · simp [own]
  · rw [beq_eq_false_iff_ne.2 own, if_neg own, optional]

end Fields

end Json

namespace Wire

/-! ## Whole documents -/

theorem parseDocument_eq_ok_iff {ofJson? : Json → Option α} {s : String} {a : α} :
    parseDocument ofJson? s = .ok a ↔ ∃ j, Json.parse? s = some j ∧ ofJson? j = some a := by
  rw [← Option.bind_eq_some_iff, parseDocument]
  split
  · next found => simp [found]
  · next found => simp [found]

/-! ## Numbers and names as text -/

theorem unsignedText?_unsignedText (n : UInt64) : unsignedText? (unsignedText n) = some n := by
  have digits : (unsignedText n).toList = Nat.toDigits 10 n.toNat := Nat.toList_repr
  have all : (Nat.toDigits 10 n.toNat).all Char.isDigit = true :=
    List.all_eq_true.2 fun c mem => Nat.isDigit_of_mem_toDigits (by decide) (by decide) mem
  rw [unsignedText?, digits, Text.natural?, if_pos ⟨Nat.toDigits_ne_nil, all⟩, Option.bind_some,
    Nat.ofDigitChars_toDigits (by decide) (by decide), Json.toUInt64?_toNat]

@[simp]
theorem unsigned?_unsignedToJson (n : UInt64) : unsigned? (unsignedToJson n) = some n := by
  rw [unsignedToJson, Json.text, unsigned?]
  change (Json.text (unsignedText n)).string?.bind unsignedText? = some n
  rw [Json.string?_text, Option.bind_some, unsignedText?_unsignedText]

end Wire

namespace Named

variable [Named α]

/-- A choice comes back from its name when it is the first one of that name. -/
theorem ofJson?_toJson {a : α} (first : ofName? (name a) = some a) :
    ofJson? (toJson a) = some a := by
  have choice : (toJson a).choice? = some (name a) := Json.decode?_unitsOf _
  rw [ofJson?, choice, Option.bind_some, first]

end Named

end AttributionReporting
