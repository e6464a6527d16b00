import AttributionReporting.Json.Number
import AttributionReporting.StringMap

/-!
# Values

`Value` is what a JSON document means: strings are text, numbers are integers or doubles, and an
object holds each name once, in ascending order, with what its last member of that name says
(`Value.ofJson?`). A document has no value when it holds half of a surrogate pair alone, a number
beyond the largest double, or lists and objects nested deeper than allowed; a member that a later
one replaces must have a value too.
-/

namespace AttributionReporting

/-- The meaning of a JSON document. -/
inductive Value
  | null
  | bool (b : Bool)
  | integer (i : Int)
  | float (x : Float)
  | string (s : String)
  | array (items : List Value)
  | object (members : List (String × Value))
deriving Inhabited

namespace Value

/-- How deep lists and objects of one document may be nested. -/
def maxNesting : Nat := 127

/-- The value of a number. -/
def ofNumber? (n : Json.Number) : Option Value :=
  match n.toInteger? with
  | some i => some (.integer i)
  | none => n.toFloat?.map .float

mutual

/-- The value of a document, with `room` more levels of lists and objects allowed. -/
def ofJson? (room : Nat) : Json → Option Value
  | .null => some .null
  | .bool b => some (.bool b)
  | .number n => ofNumber? n
  | .string units => (Json.decode? units).map .string
  | .array items => if room = 0 then none else (ofItems? (room - 1) items).map .array
  | .object members =>
    if room = 0 then none
    else (ofMembers? (room - 1) members).map fun members =>
      .object (StringMap.ofList members).entries

/-- The values of the items of a list. -/
def ofItems? (room : Nat) : List Json → Option (List Value)
  | [] => some []
  | item :: items => do
    let value ← ofJson? room item
    let values ← ofItems? room items
    some (value :: values)

/-- The names and values of the members of an object, as they stand. -/
def ofMembers? (room : Nat) : List (List Json.TextUnit × Json) → Option (List (String × Value))
  | [] => some []
  | (name, item) :: members => do
    let name ← Json.decode? name
    let value ← ofJson? room item
    let values ← ofMembers? room members
    some ((name, value) :: values)

end

mutual

/-- The document that a value is written as. -/
def toJson : Value → Json
  | .null => .null
  | .bool b => .bool b
  | .integer i => .integer i
  | .float x => .float x
  | .string s => .text s
  | .array items => .array (itemsToJson items)
  | .object members => .object (membersToJson members)

/-- The documents of the items of a list. -/
def itemsToJson : List Value → List Json
  | [] => []
  | item :: items => toJson item :: itemsToJson items

/-- The members that an object is written with. -/
def membersToJson : List (String × Value) → List (List Json.TextUnit × Json)
  | [] => []
  | (name, value) :: members => (Json.unitsOf name, toJson value) :: membersToJson members

end

end Value

end AttributionReporting
