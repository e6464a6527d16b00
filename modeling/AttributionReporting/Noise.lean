import AttributionReporting.Decimal.Text
import AttributionReporting.Source

/-!
# Noise

Event reports record the rate at which reports of their kind are made up. `NoiseRates` is the table
of these rates, which is loaded once and must hold probabilities; `NoiseRates.rateOf` looks one up
by the type of a source, whether it has destinations of both types, and whether it tells installs
apart.
-/

namespace AttributionReporting

/-! ## Faults of a configuration -/

/-- Why a configuration is refused. -/
inductive ConfigError
  /-- The text is not JSON, or JSON of another shape. -/
  | json
  /-- A rate is not a probability. -/
  | notAProbability (key : String) (value : Float)

/-- The wording of a refusal, where it has one. -/
def ConfigError.message? : ConfigError → Option String
  | .json => none
  | .notAProbability key value =>
    some (key ++ " must be a finite probability in [0, 1], got " ++ renderFloat value)

/-! ## The table -/

/-- The rates at which reports are made up. -/
structure NoiseRates where
  event : Float
  navigation : Float
  installEvent : Float
  dualEvent : Float
  dualNavigation : Float
  installDualEvent : Float

namespace NoiseRates

/-- Navigation sources that tell installs apart share the rate of those that do not. -/
def installNavigation (rates : NoiseRates) : Float := rates.navigation

/-- With destinations of both types too, telling installs apart makes no difference to navigation
sources. -/
def installDualNavigation (rates : NoiseRates) : Float := rates.dualNavigation

/-- The rate recorded on the reports of a source. -/
def rateOf (rates : NoiseRates) (source : Source) : Float :=
  match source.type, source.hasBothDestinations, source.detectsInstalls with
  | .event, false, false => rates.event
  | .event, false, true => rates.installEvent
  | .event, true, false => rates.dualEvent
  | .event, true, true => rates.installDualEvent
  | .navigation, false, false => rates.navigation
  | .navigation, false, true => rates.installNavigation
  | .navigation, true, false => rates.dualNavigation
  | .navigation, true, true => rates.installDualNavigation

/-- The rates under the names that a configuration gives them, in order. -/
def entries (rates : NoiseRates) : List (String × Float) :=
  [("eventNoiseProbability", rates.event),
    ("navigationNoiseProbability", rates.navigation),
    ("installAttrEventNoiseProbability", rates.installEvent),
    ("dualDestinationEventNoiseProbability", rates.dualEvent),
    ("dualDestinationNavigationNoiseProbability", rates.dualNavigation),
    ("installAttrDualDestinationEventNoiseProbability", rates.installDualEvent)]

/-- Whether a double is a probability. -/
def isProbability (x : Float) : Bool := x.isFinite && decide (0 ≤ x) && decide (x ≤ 1)

/-- The first rate that is not a probability. -/
def validate (rates : NoiseRates) : Except ConfigError Unit :=
  match rates.entries.find? fun entry => !isProbability entry.2 with
  | some (key, value) => .error (.notAProbability key value)
  | none => .ok ()

/-- Reads rates, probabilities or not. All of them must be given, and nothing else. -/
def ofJson? (j : Json) : Option NoiseRates := do
  let fields ← j.closedRecord?
    ["eventNoiseProbability", "navigationNoiseProbability", "installAttrEventNoiseProbability",
      "dualDestinationEventNoiseProbability", "dualDestinationNavigationNoiseProbability",
      "installAttrDualDestinationEventNoiseProbability"]
  let event ← fields.required "eventNoiseProbability" Json.float?
  let navigation ← fields.required "navigationNoiseProbability" Json.float?
  let installEvent ← fields.required "installAttrEventNoiseProbability" Json.float?
  let dualEvent ← fields.required "dualDestinationEventNoiseProbability" Json.float?
  let dualNavigation ← fields.required "dualDestinationNavigationNoiseProbability" Json.float?
  let installDualEvent ← fields.required "installAttrDualDestinationEventNoiseProbability"
    Json.float?
  some { event, navigation, installEvent, dualEvent, dualNavigation, installDualEvent }

/-- The form in which rates are written. -/
def toJson (rates : NoiseRates) : Json :=
  .record (rates.entries.map fun (key, value) => (key, .float value))

/-- Reads the rates of a configuration, which must be probabilities. -/
def parse (s : String) : Except ConfigError NoiseRates :=
  match (Json.parse? s).bind ofJson? with
  | some rates => rates.validate.map fun _ => rates
  | none => .error .json

end NoiseRates

end AttributionReporting
