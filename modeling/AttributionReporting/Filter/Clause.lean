import AttributionReporting.Filter.Map

/-!
# Filter clauses

A trigger constrains the sources it may be attributed to by filter clauses: a list of filter maps,
any of which may match. An absent clause constrains nothing; a clause that cannot be read never
passes (`FilterClause.parseLenient`), so that a mistake in a registration does not widen what it
admits.
-/

namespace AttributionReporting

/-- A constraint on filter data. -/
inductive FilterClause
  /-- No constraint. -/
  | unconstrained
  /-- Any of these maps may match; an empty list is no constraint. -/
  | anyOf (maps : List FilterMap)
  /-- The clause could not be read. It never passes. -/
  | malformed
deriving DecidableEq

namespace FilterClause

/-- The clause of a value: one filter map or a list of them. -/
def ofValue : Value → Except FilterFault FilterClause
  | .null => .ok .unconstrained
  | .object members => (FilterMap.ofValue (.object members)).map fun m => .anyOf [m]
  | .array items => (items.mapM FilterMap.ofValue).map .anyOf
  | v => .error (.notAClause v)

/-- Reads a clause from text. -/
def parse (s : String) : Except ParseError FilterClause := do
  let v ← Wire.parseValue s
  (ofValue v).mapError .filter

/-- Reads a clause from text; one that cannot be read is malformed. -/
def parseLenient (s : String) : FilterClause :=
  match parse s with
  | .ok clause => clause
  | .error _ => .malformed

/-- The clause that a larger registration holds. It may be absent, and one of another shape is
malformed. -/
def ofMember : Option Value → FilterClause
  | none => .unconstrained
  | some v =>
    match ofValue v with
    | .ok clause => clause
    | .error _ => .malformed

end FilterClause

end AttributionReporting
