import AttributionReporting.Flexible.Spec
import AttributionReporting.Wire.Document

/-!
# Stored report specs

Report specs come from registrations, which give the rules as JSON (`ReportSpec.parse`), and from
storage, which keeps rules and history together (`ReportSpec.ofStored`). Either way the rules are
validated. `ReportSpec.toJson` is the stored form.
-/

namespace AttributionReporting

/-! ## Parts of a report spec -/

namespace SummaryBucket

/-- Reads a stored bucket. -/
def ofJson? (j : Json) : Option SummaryBucket := do
  let fields ← j.record? ["start", "end"] 0
  let first ← fields.required "start" Json.uint64?
  let last ← fields.required "end" Json.uint64?
  some { first, last }

/-- The form in which a bucket is stored. -/
def toJson (b : SummaryBucket) : Json :=
  .record [("start", .integer b.first.toNat), ("end", .integer b.last.toNat)]

end SummaryBucket

namespace TriggerSpec

/-- Reads the rules for one group of trigger data. -/
def ofJson? (j : Json) : Option TriggerSpec := do
  let fields ← j.record?
    ["trigger_data", "event_report_windows", "summary_window_operator", "summary_buckets"] 0
  let triggerData ← fields.required "trigger_data" (Json.list? Wire.unsigned?)
  let windows ← fields.required "event_report_windows" ReportWindows.ofJson?
  let operator ← fields.optional "summary_window_operator" .count Named.ofJson?
  let buckets ← fields.optional "summary_buckets" [] (Json.list? Json.uint64?)
  some { triggerData, windows, operator, buckets }

/-- The form in which the rules for one group of trigger data are stored. -/
def toJson (spec : TriggerSpec) : Json :=
  .record
    [("trigger_data", .array (spec.triggerData.map Wire.unsignedToJson)),
      ("event_report_windows", spec.windows.toJson),
      ("summary_window_operator", Named.toJson spec.operator),
      ("summary_buckets", .array (spec.buckets.map fun b => .integer b.toNat))]

end TriggerSpec

namespace FlexibleConfig

/-- Reads the privacy parameters of a source, which hold its flip probability. -/
def flipProbability? (j : Json) : Option Float := do
  let fields ← j.record? ["flip_probability"] 0
  fields.required "flip_probability" Json.float?

/-- The form in which a flip probability is stored. -/
def flipProbabilityToJson (p : Float) : Json := .record [("flip_probability", .float p)]

end FlexibleConfig

/-! ## Report specs -/

namespace ReportSpec

/-- Reads the rules and the history of a stored report spec, valid or not. -/
def fieldsOfJson? (j : Json) : Option (FlexibleConfig × List AttributedTrigger) := do
  let fields ← j.record?
    ["trigger_specs", "max_reports", "privacy_parameters", "attributed_triggers"] 0
  let triggerSpecs ← fields.required "trigger_specs" (Json.list? TriggerSpec.ofJson?)
  let maxReports ← fields.required "max_reports" Json.uint32?
  let flipProbability ← fields.optional "privacy_parameters" none
    (Json.nullable? FlexibleConfig.flipProbability?)
  let history ← fields.optional "attributed_triggers" [] (Json.list? AttributedTrigger.ofJson?)
  some ({ triggerSpecs, maxReports, flipProbability }, history)

/-- The report spec that a document stores. -/
def ofJson (j : Json) : Except ParseError ReportSpec :=
  match fieldsOfJson? j with
  | some (config, history) => ofConfig config history
  | none => .error .json

/-- Reads a stored report spec. A fault in its rules is found before what follows the document is
looked at. -/
def ofStored (s : String) : Except ParseError ReportSpec :=
  match Json.read? s.toList with
  | some (j, rest) => do
    let spec ← ofJson j
    if rest.all Json.isBlank then .ok spec else .error .json
  | none => .error .json

/-- Reads the rules of a registration: the trigger specs, and the privacy parameters if there are
any. -/
def parse (triggerSpecs : String) (maxReports : UInt32) (privacyParameters : Option String) :
    Except ParseError ReportSpec := do
  let triggerSpecs ← Wire.parseDocument (Json.list? TriggerSpec.ofJson?) triggerSpecs
  let flipProbability ← privacyParameters.mapM (Wire.parseDocument FlexibleConfig.flipProbability?)
  ofConfig { triggerSpecs, maxReports, flipProbability } []

/-- The stored form of a report spec. -/
def toJson (spec : ReportSpec) : Json :=
  .record
    [("trigger_specs", .array (spec.config.triggerSpecs.map TriggerSpec.toJson)),
      ("max_reports", .integer spec.config.maxReports.toNat),
      ("privacy_parameters",
        spec.config.flipProbability.elim .null FlexibleConfig.flipProbabilityToJson),
      ("attributed_triggers", .array (spec.history.map AttributedTrigger.toJson))]

end ReportSpec

end AttributionReporting
