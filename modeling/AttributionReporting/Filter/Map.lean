import AttributionReporting.Json.Decode
import AttributionReporting.Wire.Document

/-!
# Filter maps

A filter map gives a list of values for each of its keys. A source carries one as its filter data,
and a filter clause consists of such maps. `FilterMap.parse` reads one from text and says what is
wrong with a value of another shape; `FilterMap.ofJson?` reads one inside a stored record, where
every member of the document has to be a list of strings, also one that a later member replaces.
-/

namespace AttributionReporting

/-- A list of values for each key. -/
abbrev FilterMap := StringMap (List String)

namespace FilterMap

/-- The strings of a list. -/
def valuesOfValue (key : String) : Value → Except FilterFault (List String)
  | .array items => items.mapM fun
    | .string s => .ok s
    | v => .error (.valueNotText key v)
  | _ => .error (.valuesNotAList key)

/-- The filter map of a value, whose keys are looked at in ascending order. -/
def ofValue : Value → Except FilterFault FilterMap
  | .object members => do
    let entries ← members.mapM fun (key, values) =>
      (valuesOfValue key values).map fun values => (key, values)
    .ok (StringMap.ofList entries)
  | v => .error (.notAnObject v)

/-- Reads a filter map from text. -/
def parse (s : String) : Except ParseError FilterMap := do
  let v ← Wire.parseValue s
  (ofValue v).mapError .filter

/-- The filter map of a document, all members of which must be lists of strings. -/
def ofJson? (j : Json) : Option FilterMap := j.map? (Json.list? Json.string?)

/-- The form in which a filter map is written, its keys in ascending order. -/
def toJson (m : FilterMap) : Json :=
  .record (m.entries.map fun (key, values) => (key, .array (values.map .text)))

end FilterMap

end AttributionReporting
