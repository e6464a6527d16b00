import AttributionReporting.AttributedTrigger
import AttributionReporting.Flexible.Windows
import AttributionReporting.ParseError
import AttributionReporting.Wire.Choice

/-!
# Report specs

A flexible source says which trigger data it reports, in which windows, and at which totals a report
is due: `FlexibleConfig` holds these rules, one `TriggerSpec` for each group of trigger data, with
the number of reports they may use together. `validate` names the first fault of a configuration,
and a `ReportSpec` is a configuration without one, together with the history of the source. Stored
report specs are read by `ofStored` and written by `toJson`.
-/

namespace AttributionReporting

/-! ## The rules of a source -/

/-- What a trigger adds to the total of its trigger data. -/
inductive SummaryOperator
  /-- Every trigger adds one. -/
  | count
  /-- Every trigger adds its value. -/
  | valueSum
deriving DecidableEq

instance : Named SummaryOperator where
  all := [.count, .valueSum]
  name
    | .count => "count"
    | .valueSum => "value_sum"

/-- The range of totals that one report stands for, both ends included. -/
structure SummaryBucket where
  first : UInt64
  last : UInt64
deriving DecidableEq

/-- The rules for one group of trigger data. -/
structure TriggerSpec where
  triggerData : List UInt64
  windows : ReportWindows
  operator : SummaryOperator
  /-- The totals at which a report is due; none given means every total from one on. -/
  buckets : List UInt64
deriving DecidableEq

/-- The largest unsigned 64-bit number. -/
def maxUInt64 : UInt64 := 0xffffffffffffffff

/-- The buckets that start at the given totals, each reaching to the next one. -/
def bucketsFrom : List UInt64 → List SummaryBucket
  | [] => []
  | [first] => [⟨first, maxUInt64⟩]
  | first :: next :: rest =>
    ⟨first, if next = 0 then 0 else next - 1⟩ :: bucketsFrom (next :: rest)

namespace TriggerSpec

/-- The totals at which a report is due, for a source with up to `maxReports` reports. -/
def thresholds (spec : TriggerSpec) (maxReports : UInt32) : List UInt64 :=
  if spec.buckets.isEmpty then (List.range maxReports.toNat).map fun i => UInt64.ofNat (i + 1)
  else spec.buckets

/-- The ranges of totals between the thresholds. -/
def summaryBuckets (spec : TriggerSpec) (maxReports : UInt32) : List SummaryBucket :=
  bucketsFrom (spec.thresholds maxReports)

/-- The most windows a source may have. -/
def maxWindows : Nat := 5

/-- The first fault in the rules for one group of trigger data. -/
def validate (spec : TriggerSpec) : Except SpecFault Unit :=
  if spec.windows.ends.isEmpty ∨ maxWindows < spec.windows.ends.length then .error .windowCount
  else if !spec.windows.wellOrdered then .error .windowOrder
  else if !ascending spec.buckets ∨ spec.buckets.head? = some 0 then .error .bucketOrder
  else .ok ()

end TriggerSpec

/-- The rules of a flexible source. -/
structure FlexibleConfig where
  triggerSpecs : List TriggerSpec
  maxReports : UInt32
  /-- The rate recorded on the source's reports, if it has one of its own. -/
  flipProbability : Option Float

namespace FlexibleConfig

/-- The most reports a source may ask for. -/
def maxReportsAllowed : Nat := 20

/-- The most trigger data a source may tell apart. -/
def maxTriggerData : Nat := 8

/-- Adds a trigger data to those seen before it, none of which it may repeat. -/
def addDistinct (seen : List UInt64) (data : UInt64) : Except SpecFault (List UInt64) :=
  if seen.contains data then .error (.repeatedTriggerData data) else .ok (seen ++ [data])

/-- All trigger data of a configuration, each of which must be configured once. -/
def distinctTriggerData : List UInt64 → List TriggerSpec → Except SpecFault (List UInt64)
  | seen, [] => .ok seen
  | seen, spec :: specs => do
    spec.validate
    let seen ← spec.triggerData.foldlM addDistinct seen
    distinctTriggerData seen specs

/-- The first fault of a configuration. -/
def validate (config : FlexibleConfig) : Except SpecFault Unit :=
  if maxReportsAllowed < config.maxReports.toNat then
    .error (.tooManyReports config.maxReports.toNat maxReportsAllowed)
  else if config.triggerSpecs.isEmpty then .error .noTriggerSpecs
  else do
    let data ← distinctTriggerData [] config.triggerSpecs
    if data.isEmpty ∨ maxTriggerData < data.length then .error (.triggerDataCount data.length)
    else
      match config.flipProbability with
      | some p => if 0 ≤ p ∧ p ≤ 1 then .ok () else .error .flipProbability
      | none => .ok ()

/-- The rules for a trigger data, if the source reports it. -/
def triggerSpecFor? (config : FlexibleConfig) (data : UInt64) : Option TriggerSpec :=
  config.triggerSpecs.find? (·.triggerData.contains data)

end FlexibleConfig

/-- The rules of a flexible source, which are valid, and the triggers attributed to it so far. -/
structure ReportSpec where
  config : FlexibleConfig
  valid : config.validate = .ok ()
  history : List AttributedTrigger

namespace ReportSpec

/-- The report spec with the given rules and history, unless the rules have a fault. -/
def ofConfig (config : FlexibleConfig) (history : List AttributedTrigger) :
    Except ParseError ReportSpec :=
  match valid : config.validate with
  | .ok () => .ok { config, valid, history }
  | .error fault => .error (.reportSpec fault)

/-- The most reports the source may have standing. -/
def maxReports (spec : ReportSpec) : Nat := spec.config.maxReports.toNat

/-- The same rules with one more trigger in the history. -/
def record (spec : ReportSpec) (trigger : AttributedTrigger) : ReportSpec :=
  { spec with history := spec.history ++ [trigger] }

end ReportSpec

end AttributionReporting
