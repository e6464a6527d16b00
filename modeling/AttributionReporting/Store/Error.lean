/-!
# Failing store calls

Why a call of the store fails, and its wording.
-/

namespace AttributionReporting

/-- Why a call of the store fails. -/
inductive StoreError
  | unknownSource (id : String)
  | unknownTrigger (id : String)
  | unknownEventReport (id : String)
  | eventReportExists (id : String)
  | aggregateReportExists (id : String)
  | transactionInProgress
  | noTransaction
  /-- The storage itself cannot be reached. -/
  | unavailable
deriving DecidableEq

/-- The wording of a failure. -/
def StoreError.message : StoreError → String
  | .unknownSource id => "Unknown source " ++ id
  | .unknownTrigger id => "Unknown trigger " ++ id
  | .unknownEventReport id => "Unknown event report " ++ id
  | .eventReportExists id => "Event report " ++ id ++ " already exists"
  | .aggregateReportExists id => "Aggregate report " ++ id ++ " already exists"
  | .transactionInProgress => "Transaction already in progress"
  | .noTransaction => "No transaction in progress"
  | .unavailable => "Storage unavailable"

end AttributionReporting
