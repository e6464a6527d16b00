import AttributionReporting.Filter.Clause

/-!
# Matching filters

A clause is used in one of two modes: as `filters`, where the values of every key that both sides
have must intersect, or as `notFilters`, where they must be disjoint. Keys that only one side has
are ignored, and an empty list intersects only another empty list. A clause passes when one of its
maps admits the filter data (`FilterClause.admits`), and a filtered construct when both of its
clauses do (`clausesPass`).
-/

namespace AttributionReporting

/-- How a clause is used. -/
inductive MatchMode
  | filters
  | notFilters
deriving DecidableEq

/-- Whether two value lists share a value, two empty lists counting as if they did. -/
def valuesIntersect (sourceValues clauseValues : List String) : Bool :=
  if clauseValues.isEmpty then sourceValues.isEmpty
  else clauseValues.any fun v => sourceValues.contains v

/-- Whether the values of one key agree with a clause in the given mode. -/
def MatchMode.admits (mode : MatchMode) (sourceValues clauseValues : List String) : Bool :=
  match mode with
  | .filters => valuesIntersect sourceValues clauseValues
  | .notFilters => !valuesIntersect sourceValues clauseValues

/-- Whether one map of a clause admits the filter data `source`. -/
def FilterMap.admits (source : FilterMap) (mode : MatchMode) (clause : FilterMap) : Bool :=
  clause.entries.all fun (key, clauseValues) =>
    match source.get? key with
    | some sourceValues => mode.admits sourceValues clauseValues
    | none => true

/-- Whether a clause admits the filter data `source`. -/
def FilterClause.admits (source : FilterMap) (mode : MatchMode) : FilterClause → Bool
  | .unconstrained => true
  | .anyOf maps => maps.isEmpty || maps.any (FilterMap.admits source mode)
  | .malformed => false

/-- Whether a pair of clauses admits the filter data `source`. -/
def clausesPass (source : FilterMap) (filters notFilters : FilterClause) : Bool :=
  filters.admits source .filters && notFilters.admits source .notFilters

end AttributionReporting
