import AttributionReporting.Json.Number
import AttributionReporting.StringMap

/-!
# Reading typed data from JSON

A decoder takes a document to what it stands for, or to `none` when it has another shape. Whole
numbers must be written as such and fit their type, while a double may be written as a whole number.
A record is an object, or an array of its fields in the order they are declared in (`record?`): an
object may leave out or add members but not repeat a field, and an array may stop early but not go
on past the last field. A map keeps the last member of each name. A choice among names is one of
them as a string, or as the only member of an object, which then holds `null`.
-/

namespace AttributionReporting.Json

variable {α : Type}

/-! ## Plain data -/

/-- The text of a string. -/
def string? : Json → Option String
  | .string units => decode? units
  | _ => none

/-- A whole number that fits in 64 bits, signed or unsigned. -/
def integer? : Json → Option Int
  | .number n => n.toInteger?
  | _ => none

/-- The unsigned 64-bit number equal to `i`. -/
def toUInt64? (i : Int) : Option UInt64 :=
  if 0 ≤ i ∧ i < UInt64.size then some (UInt64.ofNat i.toNat) else none

/-- The unsigned 32-bit number equal to `i`. -/
def toUInt32? (i : Int) : Option UInt32 :=
  if 0 ≤ i ∧ i < UInt32.size then some (UInt32.ofNat i.toNat) else none

/-- The number `i`, if it fits in 64 bits with a sign. -/
def toSigned64? (i : Int) : Option Int :=
  if -0x8000000000000000 ≤ i ∧ i < 0x8000000000000000 then some i else none

/-- An unsigned 64-bit number. -/
def uint64? (j : Json) : Option UInt64 := j.integer?.bind toUInt64?

/-- An unsigned 32-bit number. -/
def uint32? (j : Json) : Option UInt32 := j.integer?.bind toUInt32?

/-- A signed 64-bit number. -/
def signed64? (j : Json) : Option Int := j.integer?.bind toSigned64?

/-- A finite double. -/
def float? : Json → Option Float
  | .number n => n.toFloat?
  | _ => none

/-! ## Structured data -/

/-- A list, every item of which is read. -/
def list? (item? : Json → Option α) : Json → Option (List α)
  | .array items => items.mapM item?
  | _ => none

/-- Data that may be missing, which is written as `null`. -/
def nullable? (present? : Json → Option α) : Json → Option (Option α)
  | .null => some none
  | j => (present? j).map some

/-- The members of an object with their names as text. -/
def members? : Json → Option (List (String × Json))
  | .object members =>
    members.mapM fun (name, value) => (decode? name).map fun name => (name, value)
  | _ => none

/-- A map from names; of two members of one name the later counts, but both are read. -/
def map? (value? : Json → Option α) (j : Json) : Option (StringMap α) := do
  let members ← j.members?
  let entries ← members.mapM fun (name, value) => (value? value).map fun value => (name, value)
  some (StringMap.ofList entries)

/-- The name in a choice among names. -/
def choice? : Json → Option String
  | .string units => decode? units
  | .object [(name, .null)] => decode? name
  | _ => none

/-! ## Records -/

/-- The fields that a record gives, under their names. -/
abbrev Fields := List (String × Json)

/-- The fields of a record, at least `least` of them if it is an array. -/
def record? (names : List String) (least : Nat) : Json → Option Fields
  | .array items =>
    if least ≤ items.length ∧ items.length ≤ names.length then some (names.zip items) else none
  | j => do
    let given := (← j.members?).filter fun member => names.contains member.1
    if (given.map (·.1)).Nodup then some given else none

/-- The fields of a record that admits no other members. -/
def closedRecord? (names : List String) (j : Json) : Option Fields := do
  match j with
  | .object _ => if (← j.members?).all fun member => names.contains member.1 then pure () else none
  | _ => pure ()
  j.record? names 0

/-- A field that must be given. -/
def Fields.required (fields : Fields) (name : String) (value? : Json → Option α) : Option α :=
  (fields.lookup name).bind value?

/-- A field that stands for `absent` when it is left out. -/
def Fields.optional (fields : Fields) (name : String) (absent : α) (value? : Json → Option α) :
    Option α :=
  match fields.lookup name with
  | some j => value? j
  | none => some absent

end AttributionReporting.Json
