import AttributionReporting.Source
import AttributionReporting.Time

/-!
# Limits

`Limits` holds the policy of an attribution job: how many attributions, enrollments and reports it
admits, how much aggregate budget a source has, and when reports are due. Sources whose trigger is
an install in an app have limits of their own. A limit is reached when as many entries exist already
(`LimitStatus.check`).
-/

namespace AttributionReporting

/-- Whether a limit still admits one more entry. -/
inductive LimitStatus
  | within
  | exceeded
deriving DecidableEq

/-- Compares `count` existing entries with a limit. -/
def LimitStatus.check (count limit : Nat) : LimitStatus :=
  if limit ≤ count then .exceeded else .within

/-- The policy of an attribution job. -/
structure Limits where
  rateLimitWindow : Int
  maxAttributions : UInt64
  maxEnrollments : UInt64
  maxEventReportsPerDestination : UInt64
  maxAggregateReportsPerDestination : UInt64
  maxContributions : UInt32
  navigationMaxReports : UInt32
  eventMaxReports : UInt32
  installNavigationMaxReports : UInt32
  installEventMaxReports : UInt32
  navigationEarlyWindows : List Int
  eventEarlyWindows : List Int
  installNavigationEarlyWindows : List Int
  installEventEarlyWindows : List Int
  eventReportDelay : Int
  aggregateMinDelay : Int
  aggregateMaxDelay : Int
deriving DecidableEq

namespace Limits

/-- The policy that applies unless a configuration says otherwise. -/
def default : Limits where
  rateLimitWindow := Time.days 30
  maxAttributions := 100
  maxEnrollments := 100
  maxEventReportsPerDestination := 1024
  maxAggregateReportsPerDestination := 1024
  maxContributions := 65536
  navigationMaxReports := 3
  eventMaxReports := 1
  installNavigationMaxReports := 3
  installEventMaxReports := 2
  navigationEarlyWindows := [Time.days 2, Time.days 7]
  eventEarlyWindows := []
  installNavigationEarlyWindows := [Time.days 2, Time.days 7]
  installEventEarlyWindows := [Time.days 2]
  eventReportDelay := Time.hours 1
  aggregateMinDelay := Time.minutes 10
  aggregateMaxDelay := Time.minutes 60

instance : Inhabited Limits := ⟨default⟩

/-- Whether a conversion counts as an install. -/
def isInstall (source : Source) (type : DestinationType) : Bool :=
  source.installAttributed && type == .app

/-- The most event reports that a source may have standing when it gets one more. -/
def maxEventReports (limits : Limits) (source : Source) (type : DestinationType) : UInt32 :=
  match source.type, isInstall source type with
  | .event, false => limits.eventMaxReports
  | .event, true => limits.installEventMaxReports
  | .navigation, false => limits.navigationMaxReports
  | .navigation, true => limits.installNavigationMaxReports

/-- The ends of the windows before the last one, relative to the time of the source. -/
def earlyWindows (limits : Limits) (source : Source) (type : DestinationType) : List Int :=
  match source.type, isInstall source type with
  | .event, false => limits.eventEarlyWindows
  | .event, true => limits.installEventEarlyWindows
  | .navigation, false => limits.navigationEarlyWindows
  | .navigation, true => limits.installNavigationEarlyWindows

/-- When the window for rate limits begins that ends at `time`. The difference is exact, as it is in
64 bits if these hold it. -/
def windowStart (limits : Limits) (time : Int) : Int := time - limits.rateLimitWindow

/-- Of two windows the one that ends later begins later. -/
theorem windowStart_le (limits : Limits) {time later : Int} (le : time ≤ later) :
    limits.windowStart time ≤ limits.windowStart later := by
  unfold windowStart
  omega

/-- When the window for rate limits begins, with the difference wrapped. -/
def windowStart64 (limits : Limits) (time : Int) : Int := Time.wrap (time - limits.rateLimitWindow)

/-- The two agree for every time that is at least the window later than the first that 64 bits
hold. -/
theorem windowStart64_eq {limits : Limits} {time : Int} (fits : Time.Fits time)
    (window : 0 ≤ limits.rateLimitWindow)
    (late : -0x8000000000000000 + limits.rateLimitWindow ≤ time) :
    limits.windowStart64 time = limits.windowStart time := by
  unfold Time.Fits at fits
  rw [windowStart64, Time.wrap_of_fits ⟨by omega, by omega⟩, windowStart]

/-! ## As configuration -/

/-- The names of the limits, in the order in which an array gives them. -/
def fieldNames : List String :=
  ["rate_limit_window", "max_attributions_per_rate_limit_window",
    "max_distinct_enrollments_in_attribution", "max_event_reports_per_destination",
    "max_aggregate_reports_per_destination", "max_aggregate_contributions_per_source",
    "navigation_source_max_reports", "event_source_max_reports",
    "install_attr_navigation_source_max_reports", "install_attr_event_source_max_reports",
    "navigation_early_reporting_windows", "event_early_reporting_windows",
    "install_attr_navigation_early_reporting_windows",
    "install_attr_event_early_reporting_windows", "event_report_delay",
    "aggregate_report_min_delay", "aggregate_report_max_delay"]

/-- Reads limits. Those that are left out keep their default. -/
def ofJson? (j : Json) : Option Limits := do
  let fields ← j.record? fieldNames 0
  let windows (name : String) (absent : List Int) : Option (List Int) :=
    fields.optional name absent (Json.list? Json.signed64?)
  let rateLimitWindow ← fields.optional "rate_limit_window" default.rateLimitWindow Json.signed64?
  let maxAttributions ← fields.optional "max_attributions_per_rate_limit_window"
    default.maxAttributions Json.uint64?
  let maxEnrollments ← fields.optional "max_distinct_enrollments_in_attribution"
    default.maxEnrollments Json.uint64?
  let maxEventReportsPerDestination ← fields.optional "max_event_reports_per_destination"
    default.maxEventReportsPerDestination Json.uint64?
  let maxAggregateReportsPerDestination ← fields.optional "max_aggregate_reports_per_destination"
    default.maxAggregateReportsPerDestination Json.uint64?
  let maxContributions ← fields.optional "max_aggregate_contributions_per_source"
    default.maxContributions Json.uint32?
  let navigationMaxReports ← fields.optional "navigation_source_max_reports"
    default.navigationMaxReports Json.uint32?
  let eventMaxReports ← fields.optional "event_source_max_reports"
    default.eventMaxReports Json.uint32?
  let installNavigationMaxReports ← fields.optional "install_attr_navigation_source_max_reports"
    default.installNavigationMaxReports Json.uint32?
  let installEventMaxReports ← fields.optional "install_attr_event_source_max_reports"
    default.installEventMaxReports Json.uint32?
  let navigationEarlyWindows ← windows "navigation_early_reporting_windows"
    default.navigationEarlyWindows
  let eventEarlyWindows ← windows "event_early_reporting_windows" default.eventEarlyWindows
  let installNavigationEarlyWindows ← windows "install_attr_navigation_early_reporting_windows"
    default.installNavigationEarlyWindows
  let installEventEarlyWindows ← windows "install_attr_event_early_reporting_windows"
    default.installEventEarlyWindows
  let eventReportDelay ← fields.optional "event_report_delay" default.eventReportDelay
    Json.signed64?
  let aggregateMinDelay ← fields.optional "aggregate_report_min_delay" default.aggregateMinDelay
    Json.signed64?
  let aggregateMaxDelay ← fields.optional "aggregate_report_max_delay" default.aggregateMaxDelay
    Json.signed64?
  some
    { rateLimitWindow, maxAttributions, maxEnrollments, maxEventReportsPerDestination,
      maxAggregateReportsPerDestination, maxContributions, navigationMaxReports, eventMaxReports,
      installNavigationMaxReports, installEventMaxReports, navigationEarlyWindows,
      eventEarlyWindows, installNavigationEarlyWindows, installEventEarlyWindows,
      eventReportDelay, aggregateMinDelay, aggregateMaxDelay }

/-- The form in which limits are written. -/
def toJson (limits : Limits) : Json :=
  let windows (ends : List Int) : Json := .array (ends.map .integer)
  .record (fieldNames.zip
    [.integer limits.rateLimitWindow, .integer limits.maxAttributions.toNat,
      .integer limits.maxEnrollments.toNat, .integer limits.maxEventReportsPerDestination.toNat,
      .integer limits.maxAggregateReportsPerDestination.toNat,
      .integer limits.maxContributions.toNat, .integer limits.navigationMaxReports.toNat,
      .integer limits.eventMaxReports.toNat, .integer limits.installNavigationMaxReports.toNat,
      .integer limits.installEventMaxReports.toNat, windows limits.navigationEarlyWindows,
      windows limits.eventEarlyWindows, windows limits.installNavigationEarlyWindows,
      windows limits.installEventEarlyWindows, .integer limits.eventReportDelay,
      .integer limits.aggregateMinDelay, .integer limits.aggregateMaxDelay])

/-- Reads limits from text. -/
def parse (s : String) : Except ParseError Limits := Wire.parseDocument ofJson? s

end Limits

end AttributionReporting
