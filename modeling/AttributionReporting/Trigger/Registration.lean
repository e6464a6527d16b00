import AttributionReporting.Trigger

/-!
# Trigger registrations

The parts of a trigger as registrations give them in JSON. The `parse` functions refuse a part that
cannot be read. The `with` functions set a part and fail closed: what cannot be read is replaced by
something that never produces a report, an empty list or a clause that never passes. A clause that
cannot be read spoils only the datum it stands in.
-/

namespace AttributionReporting

/-! ## Clauses and keys inside a registration -/

/-- How deep a clause may be nested inside a list of records. -/
def clauseNesting : Nat := Value.maxNesting - 2

/-- The clause under the given name, which may be absent. -/
def clauseField? (fields : Json.Fields) (name : String) : Option FilterClause :=
  (fields.optional name none (Json.nullable? (Value.ofJson? clauseNesting))).map
    FilterClause.ofMember

/-- The dedup key of a record, which may be absent. -/
def dedupKeyField? (fields : Json.Fields) : Option (Option UInt64) :=
  fields.optional "deduplication_key" none (Json.nullable? Wire.unsigned?)

/-! ## The parts of a trigger -/

/-- Reads an event trigger datum. -/
def EventTriggerDatum.ofJson? (j : Json) : Option EventTriggerDatum := do
  let fields ← j.record?
    ["trigger_data", "priority", "deduplication_key", "value", "filters", "not_filters"] 0
  let data ← fields.optional "trigger_data" 0 Wire.unsigned?
  let priority ← fields.optional "priority" 0 Wire.priority?
  let dedupKey ← dedupKeyField? fields
  let value ← fields.optional "value" 1 Wire.value?
  let filters ← clauseField? fields "filters"
  let notFilters ← clauseField? fields "not_filters"
  some { data, priority, dedupKey, value, filters, notFilters }

/-- Reads an aggregatable datum. Its key piece is text, which may not be a key piece. -/
def AggregatableDatum.ofJson? (j : Json) : Option (Except ParseError AggregatableDatum) := do
  let fields ← j.record? ["key_piece", "source_keys", "filters", "not_filters"] 0
  let piece ← fields.required "key_piece" Json.string?
  let sourceKeys ← fields.optional "source_keys" [] (Json.list? Json.string?)
  let filters ← clauseField? fields "filters"
  let notFilters ← clauseField? fields "not_filters"
  some ((Wire.parseKeyPiece piece).map fun keyPiece =>
    { keyPiece, sourceKeys, filters, notFilters })

/-- Reads an aggregate dedup key. -/
def AggregateDedupKey.ofJson? (j : Json) : Option AggregateDedupKey := do
  let fields ← j.record? ["deduplication_key", "filters", "not_filters"] 0
  let dedupKey ← dedupKeyField? fields
  let filters ← clauseField? fields "filters"
  let notFilters ← clauseField? fields "not_filters"
  some { dedupKey, filters, notFilters }

namespace Trigger

/-- Reads the event trigger data of a registration. -/
def parseEventData (s : String) : Except ParseError (List EventTriggerDatum) :=
  Wire.parseDocument (Json.list? EventTriggerDatum.ofJson?) s

/-- Reads the aggregatable data of a registration. A wrong shape anywhere is found before a wrong
key piece. -/
def parseAggregatableData (s : String) : Except ParseError (List AggregatableDatum) := do
  let data ← Wire.parseDocument (Json.list? AggregatableDatum.ofJson?) s
  data.mapM fun datum => datum

/-- Reads the aggregate values of a registration. -/
def parseAggregateValues (s : String) : Except ParseError (StringMap UInt32) :=
  Wire.parseDocument (Json.map? Json.uint32?) s

/-- Reads the aggregate dedup keys of a registration. -/
def parseAggregateDedupKeys (s : String) : Except ParseError (List AggregateDedupKey) :=
  Wire.parseDocument (Json.list? AggregateDedupKey.ofJson?) s

/-! ## Failing closed -/

/-- Sets the event trigger data; data that cannot be read is none. -/
def withEventData (t : Trigger) (s : String) : Trigger :=
  { t with eventData := (parseEventData s).toOption.getD [] }

/-- Sets the filters; a clause that cannot be read never passes. -/
def withFilters (t : Trigger) (s : String) : Trigger :=
  { t with filters := FilterClause.parseLenient s }

/-- Sets the negated filters; a clause that cannot be read never passes. -/
def withNotFilters (t : Trigger) (s : String) : Trigger :=
  { t with notFilters := FilterClause.parseLenient s }

/-- Sets the aggregatable data; data that cannot be read is none. -/
def withAggregatableData (t : Trigger) (s : String) : Trigger :=
  { t with aggregatableData := (parseAggregatableData s).toOption.getD [] }

/-- Sets the aggregate values; values that cannot be read are none. -/
def withAggregateValues (t : Trigger) (s : String) : Trigger :=
  { t with aggregateValues := (parseAggregateValues s).toOption.getD ∅ }

/-- Sets the aggregate dedup keys; keys that cannot be read are none. -/
def withAggregateDedupKeys (t : Trigger) (s : String) : Trigger :=
  { t with aggregateDedupKeys := (parseAggregateDedupKeys s).toOption.getD [] }

end Trigger

end AttributionReporting
