import AttributionReporting.Json.Reader
import AttributionReporting.ParseError

/-!
# Reading whole documents

`parseDocument` reads a text that holds one JSON document of an expected shape, and `parseValue` one
of any shape.
-/

namespace AttributionReporting.Wire

/-- What a text stands for that holds one document of the shape `ofJson?` reads. -/
def parseDocument {α : Type} (ofJson? : Json → Option α) (s : String) : Except ParseError α :=
  match (Json.parse? s).bind ofJson? with
  | some a => .ok a
  | none => .error .json

/-- The value of a text. -/
def parseValue (s : String) : Except ParseError Value :=
  parseDocument (Value.ofJson? Value.maxNesting) s

end AttributionReporting.Wire
