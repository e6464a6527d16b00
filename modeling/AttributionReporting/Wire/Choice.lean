import AttributionReporting.Json.Decode

/-!
# Choices among names

A type with finitely many named values is read from and written as the name (`Named`).
-/

namespace AttributionReporting

/-- A type whose values have names in registrations and stored records. -/
class Named (α : Type) where
  /-- The values, in the order they are declared in. -/
  all : List α
  /-- The name of a value. -/
  name : α → String

namespace Named

variable {α : Type} [Named α]

/-- The value with the given name. -/
def ofName? (s : String) : Option α := (all (α := α)).find? fun a => name a == s

/-- The value that a document names. -/
def ofJson? (j : Json) : Option α := j.choice?.bind ofName?

/-- The form in which a value is written. -/
def toJson (a : α) : Json := .text (name a)

end Named

end AttributionReporting
