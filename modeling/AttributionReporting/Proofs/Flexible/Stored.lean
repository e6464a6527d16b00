import AttributionReporting.Flexible.Stored
import AttributionReporting.Json.RoundTrip
import AttributionReporting.Proofs.Flexible.Run
import AttributionReporting.Proofs.Json.Decode

/-!
# Stored report specs are read back

A report spec whose times and priorities fit in 64 bits (`ReportSpec.Storable`) is read back from
its stored form with the same rules and the same history (`ofStored_render`). Crediting a trigger
that fits keeps a report spec storable, and so does a whole life of such triggers (`Grown`). A flip
probability lies between zero and one, so it is finite (`isFinite_of_le_of_le`) and written as a
number; that its digits read back is a hypothesis.
-/

namespace AttributionReporting

/-! ## Doubles between finite ones -/

section

open Float.Model

theorem infinity_le_eq_false {x : UnpackedFloat} (finite : x.isFinite = true) :
    (UnpackedFloat.infinity .positive).le x = false := by
  cases x with
  | zero sign => rfl
  | finite sign mantissa exponent pos => rfl
  | notANumber => cases finite
  | infinity sign => cases finite

theorem le_negInfinity_eq_false {x : UnpackedFloat} (finite : x.isFinite = true) :
    x.le (UnpackedFloat.infinity .negative) = false := by
  cases x with
  | zero sign => cases sign <;> rfl
  | finite sign mantissa exponent pos => cases sign <;> rfl
  | notANumber => cases finite
  | infinity sign => cases finite

/-- Between two finite doubles there is neither an infinity nor what is not a number. -/
theorem isFinite_of_le_of_le {a b x : Float} (finiteA : a.isFinite = true)
    (finiteB : b.isFinite = true) (lower : a ≤ x) (upper : x ≤ b) : x.isFinite = true := by
  have lower : a.toModel.unpack.le x.toModel.unpack = true := of_decide_eq_true lower
  have upper : x.toModel.unpack.le b.toModel.unpack = true := of_decide_eq_true upper
  change x.toModel.unpack.isFinite = true
  cases h : x.toModel.unpack with
  | zero sign => rfl
  | finite sign mantissa exponent pos => rfl
  | notANumber =>
    rw [h] at upper
    cases upper
  | infinity sign =>
    rw [h] at lower upper
    cases sign with
    | positive => exact absurd upper (Bool.eq_false_iff.1 (infinity_le_eq_false finiteB))
    | negative => exact absurd lower (Bool.eq_false_iff.1 (le_negInfinity_eq_false finiteA))

end

/-! ## Parts of a report spec -/

namespace ReportWindows

/-- The bounds of the windows fit in 64 bits. -/
def Storable (w : ReportWindows) : Prop :=
  Json.FitsSigned64 w.start ∧ ∀ windowEnd ∈ w.ends, Json.FitsSigned64 windowEnd

instance (w : ReportWindows) : Decidable w.Storable := inferInstanceAs (Decidable (_ ∧ _))

theorem ofJson?_toJson {w : ReportWindows} (fits : w.Storable) : ofJson? w.toJson = some w := by
  obtain ⟨start, ends⟩ := fits
  have start := Json.signed64?_integer start
  have ends := Json.list?_map fun windowEnd mem => Json.signed64?_integer (ends windowEnd mem)
  rw [ofJson?, toJson, Json.record?_record (by simp) (by simp)]
  simp [Json.Fields.required_cons, Json.Fields.optional_cons, start, ends]

end ReportWindows

theorem SummaryOperator.ofName?_name (op : SummaryOperator) :
    Named.ofName? (Named.name op) = some op := by
  cases op <;> decide

namespace TriggerSpec

theorem ofJson?_toJson {rules : TriggerSpec} (fits : rules.windows.Storable) :
    ofJson? rules.toJson = some rules := by
  have data := Json.list?_map (l := rules.triggerData) fun n _ => Wire.unsigned?_unsignedToJson n
  have windows := ReportWindows.ofJson?_toJson fits
  have operator := Named.ofJson?_toJson rules.operator.ofName?_name
  have buckets := Json.list?_map (l := rules.buckets) fun n _ => Json.uint64?_integer n
  rw [ofJson?, toJson, Json.record?_record (by simp) (by simp)]
  simp [Json.Fields.required_cons, Json.Fields.optional_cons, data, windows, operator, buckets]

end TriggerSpec

namespace AttributedTrigger

/-- The time and the priority of a trigger fit in 64 bits. -/
def Storable (t : AttributedTrigger) : Prop :=
  Json.FitsSigned64 t.time ∧ Json.FitsSigned64 t.priority

instance (t : AttributedTrigger) : Decidable t.Storable := inferInstanceAs (Decidable (_ ∧ _))

theorem ofJson?_toJson {t : AttributedTrigger} (fits : t.Storable) :
    ofJson? t.toJson = some t := by
  have time := Json.signed64?_integer fits.1
  have priority := Json.signed64?_integer fits.2
  have dedupKey : Json.nullable? Wire.unsigned? (t.dedupKey.elim .null Wire.unsignedToJson) =
      some t.dedupKey :=
    Json.nullable?_elim fun n _ => ⟨Json.noConfusion, Wire.unsigned?_unsignedToJson n⟩
  rw [ofJson?, toJson, Json.record?_record (by simp) (by simp)]
  simp [Json.Fields.required_cons, Json.Fields.optional_cons, time, priority, dedupKey]

end AttributedTrigger

namespace FlexibleConfig

variable {config : FlexibleConfig} {p : Float}

/-- The digits of the flip probability are those of a double again. -/
def RateReadsBack (config : FlexibleConfig) : Prop :=
  ∀ p, config.flipProbability = some p → p.isFinite = true →
    (Json.Number.ofFloat p).toFloat? = some p

/-- The flip probability of valid rules is a finite double. -/
theorem isFinite_flipProbability (valid : config.validate = .ok ())
    (rate : config.flipProbability = some p) : p.isFinite = true := by
  have distinct := exists_distinct_of_validate valid
  unfold validate at valid
  rw [distinct, rate] at valid
  simp only [bind, Except.bind] at valid
  split_ifs at valid with many empty count range
  have zero : (0 : Float).isFinite = true := by decide +kernel
  have one : (1 : Float).isFinite = true := by decide +kernel
  exact isFinite_of_le_of_le zero one range.1 range.2

theorem flipProbability?_toJson (finite : p.isFinite = true)
    (reread : (Json.Number.ofFloat p).toFloat? = some p) :
    flipProbability? (flipProbabilityToJson p) = some p := by
  rw [flipProbability?, flipProbabilityToJson, Json.record?_record (by simp) (by simp)]
  simp [Json.Fields.required_cons, Json.float?_float finite reread]

end FlexibleConfig

/-! ## Report specs -/

namespace ReportSpec

/-- The bounds of all windows and the times and priorities of the history fit in 64 bits. -/
structure Storable (spec : ReportSpec) : Prop where
  windows : ∀ rules ∈ spec.config.triggerSpecs, rules.windows.Storable
  history : ∀ t ∈ spec.history, t.Storable

variable {spec reached next : ReportSpec} {t : AttributedTrigger}

theorem ofConfig_self (spec : ReportSpec) : ofConfig spec.config spec.history = .ok spec := by
  unfold ofConfig
  split
  · rfl
  · next fault invalid =>
    rw [spec.valid] at invalid
    cases invalid

theorem fieldsOfJson?_toJson (fits : spec.Storable) (rate : spec.config.RateReadsBack) :
    fieldsOfJson? spec.toJson = some (spec.config, spec.history) := by
  have rules := Json.list?_map fun rules mem => TriggerSpec.ofJson?_toJson (fits.windows rules mem)
  have flip : Json.nullable? FlexibleConfig.flipProbability?
      (spec.config.flipProbability.elim .null FlexibleConfig.flipProbabilityToJson) =
        some spec.config.flipProbability := by
    refine Json.nullable?_elim fun p flips => ⟨Json.noConfusion, ?_⟩
    have finite := FlexibleConfig.isFinite_flipProbability spec.valid flips
    exact FlexibleConfig.flipProbability?_toJson finite (rate p flips finite)
  have history := Json.list?_map fun t mem => AttributedTrigger.ofJson?_toJson (fits.history t mem)
  rw [fieldsOfJson?, toJson, Json.record?_record (by simp) (by simp)]
  simp [Json.Fields.required_cons, Json.Fields.optional_cons, rules, flip, history]

/-- A report spec is read back from its stored form. -/
theorem ofStored_render (fits : spec.Storable) (rate : spec.config.RateReadsBack) :
    ofStored spec.toJson.render = .ok spec := by
  have read : ofJson spec.toJson = .ok spec := by
    rw [ofJson, fieldsOfJson?_toJson fits rate]
    exact ofConfig_self spec
  rw [ofStored, Json.read?_render]
  dsimp only
  rw [read]
  rfl

/-! ## Report specs that grow -/

/-- The report spec `next` is what becomes of `spec` when `t` is credited, whether or not reports
change. -/
inductive Credits (spec : ReportSpec) (t : AttributedTrigger) (next : ReportSpec) : Prop
  | historyOnly {source : Source} {existing : List EventReport} {ctx : ReportContext}
    (outcome : spec.credit source t existing ctx = .historyOnly next)
  | reports {source : Source} {existing insert delete : List EventReport} {ctx : ReportContext}
    (outcome : spec.credit source t existing ctx = .reports next insert delete)

theorem Credits.eq_record (credits : spec.Credits t next) : next = spec.record t := by
  cases credits with
  | historyOnly outcome => exact (credit_eq_historyOnly_iff.1 outcome).1
  | reports outcome => exact (credit_eq_reports outcome).1

/-- The report specs that any number of credited triggers lead to. -/
inductive Grown (spec : ReportSpec) : ReportSpec → Prop
  | refl : Grown spec spec
  | step {reached next : ReportSpec} {t : AttributedTrigger} (grown : Grown spec reached)
    (new : t.Storable) (credits : reached.Credits t next) : Grown spec next

theorem Storable.record (fits : spec.Storable) (new : t.Storable) : (spec.record t).Storable where
  windows := fits.windows
  history := List.forall_mem_append.2 ⟨fits.history, List.forall_mem_singleton.2 new⟩

theorem Grown.config_eq (grown : spec.Grown reached) : reached.config = spec.config := by
  induction grown with
  | refl => rfl
  | step _ _ credits ih => exact credits.eq_record ▸ ih

theorem Grown.storable (grown : spec.Grown reached) (fits : spec.Storable) :
    reached.Storable := by
  induction grown with
  | refl => exact fits
  | step _ new credits ih => exact credits.eq_record ▸ ih.record new

/-- Whatever triggers have been credited to a valid report spec, it is read back from the text of
its stored form, the same as it was. -/
theorem ofStored_render_of_grown (fits : spec.Storable) (rate : spec.config.RateReadsBack)
    (grown : spec.Grown reached) : ofStored reached.toJson.render = .ok reached := by
  refine ofStored_render (grown.storable fits) ?_
  rw [grown.config_eq]
  exact rate

/-! ### Samples -/

/-- Rules that add up values, with a report at a total of five and one at the largest number. -/
def sampleRules : TriggerSpec := ⟨[maxUInt64, 1], ⟨0, [Time.days 2]⟩, .valueSum, [5, maxUInt64]⟩

/-- A report spec with these rules and a flip probability. -/
def sampleRates : ReportSpec := ⟨⟨[sampleRules], 3, some 0.25⟩, by decide +kernel, []⟩

/-- A trigger of the least priority whose id needs escapes. -/
def sampleEscaped : AttributedTrigger where
  triggerId := "\"\\\n\x01é😀"
  time := Sample.source.eventTime + Time.hours 1
  data := maxUInt64
  priority := -0x8000000000000000
  value := 3
  dedupKey := some maxUInt64

/-- A trigger of the highest priority and the largest value. -/
def sampleLargest : AttributedTrigger where
  triggerId := ""
  time := Sample.source.eventTime + Time.hours 2
  data := maxUInt64
  priority := 0x7fffffffffffffff
  value := maxUInt64
  dedupKey := none

/-- The first sample trigger moves no report and the second one does, and the report spec that both
of them are credited to comes back from its text. -/
theorem ofStored_render_of_grown_sample :
    sampleRates.Grown ((sampleRates.record sampleEscaped).record sampleLargest) ∧
      ofStored ((sampleRates.record sampleEscaped).record sampleLargest).toJson.render =
        .ok ((sampleRates.record sampleEscaped).record sampleLargest) := by
  have fits : sampleRates.Storable := ⟨by decide, by decide⟩
  have rate : sampleRates.config.RateReadsBack := by
    rintro p flips -
    cases flips
    decide +kernel
  have first : sampleRates.credit Sample.source sampleEscaped [] (Sample.onTime sampleEscaped) =
      .historyOnly (sampleRates.record sampleEscaped) :=
    credit_eq_historyOnly_iff.2 ⟨rfl, sampleRules, by rfl, by rfl⟩
  have rules : (sampleRates.record sampleEscaped).rulesFor Sample.source.eventTime sampleLargest =
      .ok sampleRules := by rfl
  have second : (sampleRates.record sampleEscaped).credit Sample.source sampleLargest []
      (Sample.onTime sampleLargest) =
        .reports ((sampleRates.record sampleEscaped).record sampleLargest) _ _ :=
    credit_of_crossed rules (by decide)
  have grown :=
    (Grown.refl.step (by decide) (.historyOnly first)).step (by decide) (.reports second)
  exact ⟨grown, ofStored_render_of_grown fits rate grown⟩

end ReportSpec

end AttributionReporting
