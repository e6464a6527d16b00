import AttributionReporting.AggregateReport
import AttributionReporting.EventReport
import AttributionReporting.Noise
import AttributionReporting.Time

/-!
# Sample records

Records to start examples from: an event source of a shop's app, a trigger on it five hours later,
one report of each kind, and a table of rates that are all different.
-/

namespace AttributionReporting.Sample

/-- The app of the shop. -/
def destination : String := "android-app://com.example.shop"

/-- A fresh source that reports truthfully on one app. -/
def source : Source where
  id := "source1"
  eventId := 1
  type := .event
  publisher := "android-app://com.example.publisher"
  enrollmentId := "enrollment1"
  appDestinations := [destination]
  webDestinations := []
  priority := 0
  eventTime := 1642235602000
  expiryTime := 1642235602000 + Time.days 30
  eventReportWindow := 1642235602000 + Time.days 30
  aggregatableReportWindow := 1642235602000 + Time.days 30
  mode := .truthfully
  filterData := ∅
  aggregationKeys := ∅
  contributions := 0
  eventDedupKeys := []
  aggregateDedupKeys := []
  installAttributed := false
  installCooldown := 0
  debugKey := none
  status := .active
  reportSpec := none

/-- A pending trigger on the app of the sample source, without data for reports. -/
def trigger : Trigger where
  id := "trigger1"
  destination := destination
  destinationType := .app
  enrollmentId := source.enrollmentId
  time := source.eventTime + Time.hours 5
  status := .pending
  eventData := []
  filters := .unconstrained
  notFilters := .unconstrained
  aggregatableData := []
  aggregateValues := ∅
  aggregateDedupKeys := []
  debugKey := none

/-- A pending report of the sample source. -/
def eventReport : EventReport where
  id := source.id ++ ":trigger0"
  sourceId := source.id
  credited :=
    { triggerId := "trigger0", time := trigger.time, data := 1, priority := 0, value := 1,
      dedupKey := none }
  sourceEventId := source.eventId
  enrollmentId := source.enrollmentId
  destinations := source.appDestinations
  sourceType := source.type
  reportTime := source.eventReportWindow + Time.hours 1
  triggerRate := 0
  status := .pending
  debugStatus := .none
  bucket := none
  sourceDebugKey := none
  triggerDebugKey := none

/-- A pending report of the sample source and trigger, with one contribution. -/
def aggregateReport : AggregateReport where
  id := source.id ++ ":" ++ trigger.id ++ ":aggregate"
  sourceId := source.id
  triggerId := trigger.id
  publisher := source.publisher
  enrollmentId := source.enrollmentId
  destination := trigger.destination
  sourceRegistrationTime := Time.roundDownToDay source.eventTime
  scheduledReportTime := trigger.time + Time.hours 1
  apiVersion := "0.1"
  debugPayload := cleartextPayload [{ bucket := 1369, value := 32768 }]
  contributions := [{ bucket := 1369, value := 32768 }]
  status := .pending
  sourceDebugKey := none
  triggerDebugKey := none
  dedupKey := none

/-- Rates that are all different. -/
def rates : NoiseRates where
  event := 0.0000025
  navigation := 0.0024263
  installEvent := 0.0000125
  dualEvent := 0.0000042
  dualNavigation := 0.0170218
  installDualEvent := 0.0000208

end AttributionReporting.Sample
