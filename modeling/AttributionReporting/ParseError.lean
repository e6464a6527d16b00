import AttributionReporting.Json.Printer
import AttributionReporting.Json.Value
import AttributionReporting.Text.Quoted

/-!
# Why a text is rejected

The causes for which registrations and stored records are refused, and their wording
(`ParseError.message`). What is wrong with the JSON itself has no wording here.
-/

namespace AttributionReporting

/-- The text of a value. -/
def Value.render (v : Value) : String := v.toJson.render

/-- What is wrong with a filter clause. -/
inductive FilterFault
  | notAnObject (found : Value)
  | valuesNotAList (key : String)
  | valueNotText (key : String) (found : Value)
  | notAClause (found : Value)

/-- The wording of a filter fault. -/
def FilterFault.message : FilterFault → String
  | .notAnObject found => "expected object, got " ++ found.render
  | .valuesNotAList key => "values for " ++ Text.quote key ++ " must be an array"
  | .valueNotText key found =>
    "value " ++ found.render ++ " for " ++ Text.quote key ++ " is not a string"
  | .notAClause found => "expected object or array, got " ++ found.render

/-- What is wrong with a report spec. -/
inductive SpecFault
  | tooManyReports (reports : Nat) (most : Nat)
  | noTriggerSpecs
  | windowCount
  | windowOrder
  | bucketOrder
  | repeatedTriggerData (data : UInt64)
  | triggerDataCount (count : Nat)
  | flipProbability
deriving DecidableEq

/-- The wording of a report spec fault. -/
def SpecFault.message : SpecFault → String
  | .tooManyReports reports most => "max_reports " ++ toString reports ++ " above " ++ toString most
  | .noTriggerSpecs => "no trigger specs"
  | .windowCount => "bad number of reporting windows"
  | .windowOrder => "reporting windows must be increasing"
  | .bucketOrder => "summary buckets must be positive and increasing"
  | .repeatedTriggerData data => "trigger data " ++ toString data.toNat ++ " configured twice"
  | .triggerDataCount count => "trigger data cardinality " ++ toString count ++ " out of range"
  | .flipProbability => "flip_probability must be in [0, 1]"

/-- Why a registration or a stored record is rejected. -/
inductive ParseError
  /-- The text is not JSON, or JSON of another shape. -/
  | json
  | unsignedLong (text : String)
  | keyPiece (text : String)
  | filter (fault : FilterFault)
  | reportSpec (fault : SpecFault)

/-- The wording of a rejection, where it has one. -/
def ParseError.message? : ParseError → Option String
  | .json => none
  | .unsignedLong text => some ("invalid unsigned 64-bit value: " ++ Text.quote text)
  | .keyPiece text => some ("invalid aggregation key piece: " ++ Text.quote text)
  | .filter fault => some ("malformed filter clause: " ++ fault.message)
  | .reportSpec fault => some ("invalid report spec: " ++ fault.message)

end AttributionReporting
