import AttributionReporting.Wire.Integer

/-!
# Attributed triggers

What a report credits: the data, priority, value and dedup key that a trigger was attributed with,
and when it happened. The history of a flexible source is a list of these, which is stored as JSON.
-/

namespace AttributionReporting

/-- One attributed trigger. -/
structure AttributedTrigger where
  triggerId : String
  time : Int
  data : UInt64
  priority : Int
  value : UInt64
  dedupKey : Option UInt64
deriving DecidableEq

namespace AttributedTrigger

/-- Reads a stored entry. As an array it must give every field. -/
def ofJson? (j : Json) : Option AttributedTrigger := do
  let fields ← j.record?
    ["trigger_id", "trigger_time", "trigger_data", "priority", "value", "dedup_key"] 6
  let triggerId ← fields.required "trigger_id" Json.string?
  let time ← fields.required "trigger_time" Json.signed64?
  let data ← fields.required "trigger_data" Wire.unsigned?
  let priority ← fields.required "priority" Json.signed64?
  let value ← fields.required "value" Json.uint64?
  let dedupKey ← fields.optional "dedup_key" none (Json.nullable? Wire.unsigned?)
  some { triggerId, time, data, priority, value, dedupKey }

/-- The form in which an entry is stored. -/
def toJson (t : AttributedTrigger) : Json :=
  .record
    [("trigger_id", .text t.triggerId),
      ("trigger_time", .integer t.time),
      ("trigger_data", Wire.unsignedToJson t.data),
      ("priority", .integer t.priority),
      ("value", .integer t.value.toNat),
      ("dedup_key", t.dedupKey.elim .null Wire.unsignedToJson)]

end AttributedTrigger

end AttributionReporting
