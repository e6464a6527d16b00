import AttributionReporting.Filter.Map
import AttributionReporting.Flexible.Spec
import AttributionReporting.Time
import AttributionReporting.Wire.KeyPiece

/-!
# Sources

A source is a registered ad exposure. Its registration fixes everything but its status, its dedup
keys, the contributions it has used up and, for a flexible source, the history in its report spec.
The filter data that triggers see (`Source.matchingData`) always says which kind of source it is,
whatever the registration put under that key.
-/

namespace AttributionReporting

/-- How the exposure came about. -/
inductive SourceType
  /-- The ad was seen. -/
  | event
  /-- The ad was followed. -/
  | navigation
deriving DecidableEq

instance : Named SourceType where
  all := [.event, .navigation]
  name
    | .event => "EVENT"
    | .navigation => "NAVIGATION"

/-- Whether a source is reported on as it is or takes part in randomized response. -/
inductive AttributionMode
  | truthfully
  | falsely
  | never
deriving DecidableEq

instance : Named AttributionMode where
  all := [.truthfully, .falsely, .never]
  name
    | .truthfully => "TRUTHFULLY"
    | .falsely => "FALSELY"
    | .never => "NEVER"

/-- Whether triggers may still be attributed to a source. -/
inductive SourceStatus
  | active
  | ignored
deriving DecidableEq

instance : Named SourceStatus where
  all := [.active, .ignored]
  name
    | .active => "ACTIVE"
    | .ignored => "IGNORED"

/-- Where a conversion happens. -/
inductive DestinationType
  | app
  | web
deriving DecidableEq

instance : Named DestinationType where
  all := [.app, .web]
  name
    | .app => "APP"
    | .web => "WEB"

/-- A registered ad exposure. -/
structure Source where
  id : String
  eventId : UInt64
  type : SourceType
  /-- The site that showed the ad. -/
  publisher : String
  /-- The origin that registered the source and receives its reports. -/
  enrollmentId : String
  appDestinations : List String
  webDestinations : List String
  priority : Int
  eventTime : Int
  expiryTime : Int
  /-- The end of the time for event reports. -/
  eventReportWindow : Int
  /-- The end of the time for aggregate reports. -/
  aggregatableReportWindow : Int
  mode : AttributionMode
  filterData : FilterMap
  aggregationKeys : StringMap KeyPiece
  /-- How much of its aggregate budget the source has used. -/
  contributions : UInt32
  eventDedupKeys : List UInt64
  aggregateDedupKeys : List UInt64
  installAttributed : Bool
  /-- How long after its time an install-attributed source is protected from newer ones. -/
  installCooldown : Int
  debugKey : Option UInt64
  status : SourceStatus
  /-- The rules and history of a flexible source. -/
  reportSpec : Option ReportSpec

namespace Source

/-- The key under which filter data says what kind of source it belongs to. -/
def typeKey : String := "source_type"

/-- What filter data says of a source of each type. -/
def typeValue : SourceType → String
  | .event => "event"
  | .navigation => "navigation"

/-- The filter data that triggers are matched against. -/
def matchingData (s : Source) : FilterMap := s.filterData.insert typeKey [typeValue s.type]

/-- The destinations of one type. -/
def destinations (s : Source) : DestinationType → List String
  | .app => s.appDestinations
  | .web => s.webDestinations

/-- All destinations, those in apps first. -/
def allDestinations (s : Source) : List String := s.appDestinations ++ s.webDestinations

/-- Whether the source has destinations of both types. -/
def hasBothDestinations (s : Source) : Bool :=
  !s.appDestinations.isEmpty && !s.webDestinations.isEmpty

/-- Whether the source tells installs from other conversions. -/
def detectsInstalls (s : Source) : Bool :=
  decide (0 < s.installCooldown) && !s.appDestinations.isEmpty

/-- Whether the source led to an install and is still protected from newer sources at `time`. -/
def isProtected (s : Source) (time : Int) : Bool :=
  s.installAttributed && decide (time < Time.wrap (s.eventTime + s.installCooldown))

/-- A source is protected up to the end of its cooldown, if 64 bits hold that. -/
theorem isProtected_iff {s : Source} {time : Int}
    (fits : Time.Fits (s.eventTime + s.installCooldown)) :
    s.isProtected time = true ↔
      s.installAttributed = true ∧ time < s.eventTime + s.installCooldown := by
  rw [isProtected, Time.wrap_of_fits fits, Bool.and_eq_true, decide_eq_true_eq]

/-- Reads the aggregation keys of a registration: key pieces under their names. Every piece has to
be text, and those that stay are then read in the order of the names. -/
def parseAggregationKeys (text : String) : Except ParseError (StringMap KeyPiece) := do
  let pieces ← Wire.parseDocument (Json.map? Json.string?) text
  let entries ← pieces.entries.mapM fun (name, piece) =>
    (Wire.parseKeyPiece piece).map fun piece => (name, piece)
  .ok (StringMap.ofList entries)

end Source

end AttributionReporting
