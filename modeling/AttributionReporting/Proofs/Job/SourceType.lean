import AttributionReporting.Proofs.Job.Capacity
import AttributionReporting.Proofs.Job.Wrapped
import AttributionReporting.Proofs.StringMap
import Mathlib

/-!
# The type of a source cannot be spoofed

Filter data may have anything under the key for the type of the source, and triggers see the real
type there all the same. So nothing that the job does depends on what stands under this key: over
two stores that differ in nothing else (`JobState.SameButTypes`) a trigger ends in the same way, and
the stores again differ in nothing else (`process_sameButTypes`).

The proof puts the real type into the filter data of every source (`Source.typed`). Two sources
differ in nothing but what they say of their type exactly when this makes them equal
(`Source.typed_eq_iff`), and every step of the job does over such sources what it does over the
sources as they are (`Blind`).
-/

namespace AttributionReporting

/-! ## Sources -/

namespace Source

/-- Two sources that differ at most in what their filter data say of their type. -/
structure SameButType (s s' : Source) : Prop where
  filterData : ∀ key, key ≠ typeKey → s.filterData.get? key = s'.filterData.get? key
  others : { s with filterData := s'.filterData } = s'

/-- The source with its real type in its filter data. -/
def typed (s : Source) : Source := { s with filterData := s.matchingData }

variable {s s' : Source}

theorem matchingData_typed (s : Source) : s.typed.matchingData = s.matchingData :=
  StringMap.insert_insert s.filterData typeKey [typeValue s.type] [typeValue s.type]

theorem SameButType.matchingData (same : s.SameButType s') : s.matchingData = s'.matchingData := by
  have type : s.type = s'.type := by
    rw [← same.others]
  refine StringMap.ext_get? fun key => ?_
  unfold Source.matchingData
  rw [StringMap.get?_insert, StringMap.get?_insert, type]
  split_ifs with own
  · rfl
  · exact same.filterData key own

theorem typed_eq_iff : s.typed = s'.typed ↔ s.SameButType s' := by
  constructor
  · intro eq
    have data : s.matchingData = s'.matchingData := congrArg Source.filterData eq
    constructor
    · intro key other
      have held := congrArg (StringMap.get? · key) data
      simpa [Source.matchingData, StringMap.get?_insert, other] using held
    · exact congrArg (fun t => { t with filterData := s'.filterData }) eq
  · intro same
    unfold typed
    rw [same.matchingData]
    exact congrArg (fun t => { t with filterData := s'.matchingData }) same.others

end Source

/-! ## What is read off a source -/

section

variable {s : Source} {trigger : Trigger}

theorem clausesPass_typed (filters notFilters : FilterClause) :
    clausesPass s.typed.matchingData filters notFilters =
      clausesPass s.matchingData filters notFilters := by
  rw [Source.matchingData_typed]

theorem selectDatum_typed : selectDatum s.typed trigger = selectDatum s trigger := by
  simp only [selectDatum, clausesPass_typed]

theorem contributions_typed : contributions s.typed trigger = contributions s trigger := by
  unfold contributions namedBuckets passingData
  simp only [clausesPass_typed]
  rfl

theorem matchingDedupKey_typed : matchingDedupKey s.typed trigger = matchingDedupKey s trigger := by
  simp only [matchingDedupKey, clausesPass_typed]

theorem decideAggregateReport_typed (limits : Limits) :
    decideAggregateReport s.typed trigger limits = decideAggregateReport s trigger limits := by
  funext draws
  unfold decideAggregateReport aggregateObstacle? aggregateReport
  rw [matchingDedupKey_typed, contributions_typed]
  rfl

theorem desiredFrom_typed (spec : ReportSpec) (ctx : ReportContext)
    (above rest : List AttributedTrigger) :
    spec.desiredFrom s.typed ctx above rest = spec.desiredFrom s ctx above rest := by
  induction rest generalizing above with
  | nil => rfl
  | cons t rest ih =>
    have first : spec.reportsFor s.typed ctx above t = spec.reportsFor s ctx above t := rfl
    rw [ReportSpec.desiredFrom, ReportSpec.desiredFrom, first, ih]

theorem credit_typed (spec : ReportSpec) (t : AttributedTrigger) (existing : List EventReport)
    (ctx : ReportContext) : spec.credit s.typed t existing ctx = spec.credit s t existing ctx := by
  unfold ReportSpec.credit ReportSpec.desired
  simp only [desiredFrom_typed]
  rfl

theorem rankSources_typed (time : Int) (sources : List Source) :
    rankSources time (sources.map Source.typed) = (rankSources time sources).map Source.typed :=
  (List.map_mergeSort (f := Source.typed) fun _ _ _ _ => rfl).symm

theorem selectSource_typed (sources : List Source) (trigger : Trigger) :
    selectSource (sources.map Source.typed) trigger =
      (selectSource sources trigger).map fun (winner, losers) =>
        (winner.typed, losers.map Source.typed) := by
  unfold selectSource
  rw [rankSources_typed]
  cases rankSources trigger.time sources with
  | nil => rfl
  | cons winner losers => rfl

end

namespace Job

variable {cfg : JobConfig} {s : Source} {trigger : Trigger}

theorem planStandard_typed (datum : EventTriggerDatum) (existing : List EventReport) :
    planStandard cfg s.typed trigger datum existing = planStandard cfg s trigger datum existing :=
  rfl

theorem planFlexible_typed (datum : EventTriggerDatum) (spec : ReportSpec)
    (existing : List EventReport) :
    planFlexible cfg s.typed trigger datum spec existing =
      planFlexible cfg s trigger datum spec existing := by
  unfold planFlexible
  rw [credit_typed]
  rfl

theorem planEvent_typed (datum : EventTriggerDatum) (existing : List EventReport) :
    planEvent cfg s.typed trigger datum existing = planEvent cfg s trigger datum existing := by
  unfold planEvent
  simp only [planStandard_typed, planFlexible_typed]
  rfl

theorem planAttribution_typed (losers : List Source) :
    planAttribution s.typed (losers.map Source.typed) trigger =
      planAttribution s losers trigger := by
  simp only [planAttribution, List.map_map, List.isEmpty_map]
  rfl

end Job

/-! ## Stores -/

/-- The records with the real types of the sources in their filter data. -/
def Records.typed (r : Records) : Records := { r with sources := r.sources.map Source.typed }

/-- The store with the real types of the sources in their filter data. -/
def Store.typed (store : Store) : Store := ⟨store.records.typed, store.snapshot.map Records.typed⟩

/-- Two collections of records that differ at most in what sources say of their types. -/
structure Records.SameButTypes (r r' : Records) : Prop where
  sources : List.Forall₂ Source.SameButType r.sources r'.sources
  triggers : r.triggers = r'.triggers
  eventReports : r.eventReports = r'.eventReports
  aggregateReports : r.aggregateReports = r'.aggregateReports
  attributions : r.attributions = r'.attributions

/-- Two stores that differ at most in what sources say of their types. -/
structure Store.SameButTypes (store store' : Store) : Prop where
  records : store.records.SameButTypes store'.records
  snapshot : Option.Rel Records.SameButTypes store.snapshot store'.snapshot

/-- Two states of the job with the same numbers in the generator and stores that differ at most in
what sources say of their types. -/
structure JobState.SameButTypes (s s' : JobState Store) : Prop where
  store : s.store.SameButTypes s'.store
  draws : s.draws = s'.draws

theorem Records.typed_eq_iff {r r' : Records} : r.typed = r'.typed ↔ r.SameButTypes r' := by
  have sources : r.sources.map Source.typed = r'.sources.map Source.typed ↔
      List.Forall₂ Source.SameButType r.sources r'.sources := by
    rw [← List.forall₂_eq_eq_eq, List.forall₂_map_left_iff, List.forall₂_map_right_iff]
    simp only [Source.typed_eq_iff]
  rw [Records.ext_iff]
  constructor
  · rintro ⟨same, triggers, events, aggregates, attributions⟩
    exact ⟨sources.1 same, triggers, events, aggregates, attributions⟩
  · rintro ⟨same, triggers, events, aggregates, attributions⟩
    exact ⟨sources.2 same, triggers, events, aggregates, attributions⟩

theorem Store.typed_eq_iff {store store' : Store} :
    store.typed = store'.typed ↔ store.SameButTypes store' := by
  obtain ⟨records, snapshot⟩ := store
  obtain ⟨records', snapshot'⟩ := store'
  simp only [Store.typed, Store.mk.injEq, Records.typed_eq_iff]
  constructor
  · rintro ⟨same, saved⟩
    refine ⟨same, ?_⟩
    match snapshot, snapshot', saved with
    | none, none, _ => exact .none
    | some r, some r', saved => exact .some (Records.typed_eq_iff.1 (Option.some.inj saved))
  · rintro ⟨same, saved⟩
    refine ⟨same, ?_⟩
    cases saved with
    | some saved => exact congrArg some (Records.typed_eq_iff.2 saved)
    | none => rfl

theorem JobState.through_typed_eq_iff {s s' : JobState Store} :
    s.through Store.typed = s'.through Store.typed ↔ s.SameButTypes s' := by
  rw [JobState.through, JobState.through, JobState.mk.injEq, Store.typed_eq_iff]
  exact ⟨fun ⟨store, draws⟩ => ⟨store, draws⟩, fun ⟨store, draws⟩ => ⟨store, draws⟩⟩

/-! ## Calls of the store -/

theorem answer_matchingSources_typed (trigger : Trigger) (r : Records) :
    (Query.matchingSources trigger).answer r.typed =
      .ok ((r.sources.filter (·.matchesTrigger trigger)).map Source.typed) := by
  have matching : (Source.matchesTrigger · trigger) ∘ Source.typed =
      (Source.matchesTrigger · trigger) := rfl
  rw [Query.answer, Records.typed, List.filter_map, matching]

theorem updateSource_typed (id : String) {f : Source → Source}
    (commutes : ∀ s : Source, f s.typed = (f s).typed) (r : Records) :
    Records.updateSource id f r.typed = mapState Records.typed (Records.updateSource id f r) := by
  have sources : modifyKey? Source.id id f (r.sources.map Source.typed) =
      (modifyKey? Source.id id f r.sources).map (List.map Source.typed) :=
    modifyKey?_map (fun _ => rfl) commutes
  unfold Records.updateSource Records.typed
  rw [sources]
  cases modifyKey? Source.id id f r.sources with
  | none => rfl
  | some sources => rfl

theorem updateTrigger_typed (id : String) (f : Trigger → Trigger) (r : Records) :
    Records.updateTrigger id f r.typed = mapState Records.typed (Records.updateTrigger id f r) := by
  have triggers : r.typed.triggers = r.triggers := rfl
  unfold Records.updateTrigger
  rw [triggers]
  cases modifyKey? Trigger.id id f r.triggers with
  | none => rfl
  | some triggers => rfl

theorem Write.perform_typed (w : Write) (r : Records) :
    w.perform r.typed = mapState Records.typed (w.perform r) := by
  cases w with
  | insertEventReport report =>
    show Records.insertEventReport report _ = mapState _ (Records.insertEventReport report r)
    unfold Records.insertEventReport
    rw [apply_ite (mapState Records.typed)]
    rfl
  | deleteEventReport id =>
    simp only [perform, Records.deleteEventReport, Records.typed]
    cases removeKey? EventReport.id id r.eventReports with
    | none => rfl
    | some reports => rfl
  | insertAggregateReport report =>
    show Records.insertAggregateReport report _ =
      mapState _ (Records.insertAggregateReport report r)
    unfold Records.insertAggregateReport
    rw [apply_ite (mapState Records.typed)]
    rfl
  | setEventDedupKeys id | setAggregateDedupKeys id | setContributions id | setReportSpec id =>
    refine updateSource_typed id (fun s => ?_) r
    rfl
  | setSourceStatus ids status =>
    refine forM_mapState _ (fun _ => True) (fun _ _ => keeps_true _) (fun id _ r _ => ?_) trivial
    refine updateSource_typed id (fun s => ?_) r
    rfl
  | setTriggerStatus ids status =>
    exact forM_mapState _ (fun _ => True) (fun _ _ => keeps_true _)
      (fun id _ r _ => updateTrigger_typed id _ r) trivial
  | insertAttribution attribution => rfl

namespace Job

variable {α β : Type} {cfg : JobConfig} {source : Source} {trigger : Trigger}

/-! ## Steps -/

/-- `y` does over sources with their real types in their filter data what `x` does over the sources
as they are. -/
def Blind (x y : Step Store α) : Prop :=
  ∀ s, y (s.through Store.typed) = mapState (JobState.through Store.typed) (x s)

theorem blind_pure (a : α) : Blind (pure a) (pure a) := fun _ => rfl

theorem blind_draw (f : Draws → α × Draws) : Blind (draw f) (draw f) := fun _ => rfl

theorem Blind.bind {x y : Step Store α} {f g : α → Step Store β} (first : Blind x y)
    (second : ∀ a, Blind (f a) (g a)) : Blind (x >>= f) (y >>= g) := by
  intro s
  rw [bind_eq, bind_eq, first]
  cases x s with
  | ok a s => exact second a s
  | error e s => rfl

theorem blind_call {act : EStateM StoreError Store α}
    (same : ∀ store : Store, act store.typed = mapState Store.typed (act store)) :
    Blind (call act) (call act) := by
  intro s
  unfold call JobState.through
  simp only [same]
  cases act s.store with
  | ok a store => rfl
  | error e store => rfl

theorem blind_ask {query query' : Query α}
    (same : ∀ r : Records, query'.answer r.typed = query.answer r) :
    Blind (ask Store.backend query) (ask Store.backend query') := by
  intro s
  simp only [ask, call, Store.backend, JobState.through, Store.typed, same]
  cases query.answer s.store.records with
  | ok a => rfl
  | error e => rfl

/-- The sources that match are the only answer that shows filter data. -/
theorem blind_matchingSources_bind {f : List Source → Step Store α}
    (next : ∀ sources, Blind (f sources) (f (sources.map Source.typed))) :
    Blind (ask Store.backend (.matchingSources trigger) >>= f)
      (ask Store.backend (.matchingSources trigger) >>= f) := by
  intro s
  rw [bind_eq, bind_eq]
  simp only [ask, call, Store.backend, JobState.through, Store.typed, answer_matchingSources_typed]
  exact next _ s

theorem blind_write (writes : List Write) :
    Blind (write Store.backend writes) (write Store.backend writes) := by
  induction writes with
  | nil => exact blind_pure ()
  | cons w rest ih =>
    refine (blind_call fun store => ?_).bind fun _ => ih
    simp only [Store.backend, Store.change, Store.typed, w.perform_typed]
    cases w.perform store.records with
    | ok _ r => rfl
    | error e r => rfl

theorem blind_write_pure (writes : List Write) (a : α) :
    Blind (write Store.backend writes >>= fun _ => pure a)
      (write Store.backend writes >>= fun _ => pure a) :=
  (blind_write writes).bind fun _ => blind_pure a

/-! ## The steps of the job -/

theorem blind_ignore (trigger : Trigger) :
    Blind (ignore Store.backend trigger) (ignore Store.backend trigger) :=
  blind_write_pure [.setTriggerStatus [trigger.id] .ignored] TriggerOutcome.ignored

theorem blind_eventPath :
    Blind (eventPath Store.backend cfg source trigger)
      (eventPath Store.backend cfg source.typed trigger) := by
  unfold eventPath
  rw [selectDatum_typed]
  cases selectDatum source trigger with
  | none => exact blind_pure false
  | some datum =>
    refine (blind_ask fun _ => rfl).bind fun count => ?_
    split_ifs with full
    · exact blind_pure false
    · refine Blind.bind (x := ask Store.backend (.sourceReports source.id))
        (blind_ask fun _ => rfl) fun existing => ?_
      rw [planEvent_typed]
      cases planEvent cfg source trigger datum existing with
      | none => exact blind_pure false
      | some writes => exact blind_write_pure writes true

theorem blind_aggregatePath :
    Blind (aggregatePath Store.backend cfg source trigger)
      (aggregatePath Store.backend cfg source.typed trigger) := by
  unfold aggregatePath
  rw [decideAggregateReport_typed]
  refine (blind_draw _).bind fun decision => ?_
  cases decision with
  | drop reason => exact blind_pure false
  | insert report dedupKey =>
    refine (blind_ask fun _ => rfl).bind fun count => ?_
    split_ifs with full
    · exact blind_pure false
    · exact blind_write_pure (planAggregate source report dedupKey) true

theorem blind_limitReached :
    Blind (limitReached Store.backend cfg source trigger)
      (limitReached Store.backend cfg source.typed trigger) := by
  unfold limitReached
  refine (blind_ask fun _ => rfl).bind fun attributions => ?_
  split_ifs with tooMany
  · exact blind_pure true
  · exact (blind_ask fun _ => rfl).bind fun enrollments => blind_pure _

theorem blind_credit (losers : List Source) :
    Blind (credit Store.backend cfg source losers trigger)
      (credit Store.backend cfg source.typed (losers.map Source.typed) trigger) := by
  unfold credit
  rw [planAttribution_typed]
  refine blind_eventPath.bind fun event => blind_aggregatePath.bind fun aggregate => ?_
  split_ifs with led
  · exact blind_write_pure _ TriggerOutcome.attributed
  · exact blind_ignore trigger

theorem blind_attributePending :
    Blind (attributePending Store.backend cfg trigger)
      (attributePending Store.backend cfg trigger) := by
  unfold attributePending
  refine blind_matchingSources_bind fun sources => ?_
  rw [selectSource_typed]
  cases selectSource sources trigger with
  | none => exact blind_ignore trigger
  | some won =>
    obtain ⟨source, losers⟩ := won
    simp only [Option.map_some, clausesPass_typed]
    split_ifs with pass
    · refine blind_limitReached.bind fun blocked => ?_
      have mode : source.typed.mode = source.mode := rfl
      rw [mode]
      split_ifs with stop
      · exact blind_ignore trigger
      · exact blind_credit losers
    · exact blind_ignore trigger

theorem blind_attributeTrigger (id : String) :
    Blind (attributeTrigger Store.backend cfg id) (attributeTrigger Store.backend cfg id) := by
  unfold attributeTrigger
  refine (blind_ask fun _ => rfl).bind fun trigger => ?_
  split_ifs with done
  · exact blind_pure TriggerOutcome.skipped
  · exact blind_attributePending

theorem blind_transact (step : Transaction) :
    Blind (call (Store.backend.transact step)) (call (Store.backend.transact step)) := by
  refine blind_call fun store => ?_
  obtain ⟨records, snapshot⟩ := store
  cases step <;> cases snapshot <;> rfl

theorem Blind.transactionally {x y : Step Store α} (blind : Blind x y) :
    Blind (transactionally Store.backend x) (transactionally Store.backend y) := by
  intro s
  unfold Job.transactionally
  rw [blind_transact]
  cases call (Store.backend.transact .begin) s with
  | error e s => rfl
  | ok _ s =>
    simp only [mapState, blind s]
    cases x s with
    | ok a s =>
      simp only [mapState, blind_transact .commit s]
      cases call (Store.backend.transact .commit) s with
      | ok _ s => rfl
      | error e s => rfl
    | error e s =>
      simp only [mapState, blind_transact .rollback s]
      cases call (Store.backend.transact .rollback) s with
      | ok _ s => rfl
      | error _ s => rfl

theorem blind_process (cfg : JobConfig) (id : String) :
    Blind (process Store.backend cfg id) (process Store.backend cfg id) :=
  (blind_attributeTrigger id).transactionally

theorem Blind.attempt {x : Step Store α} (blind : Blind x x) : Blind (attempt x) (attempt x) := by
  intro s
  unfold Job.attempt
  rw [blind s]
  cases x s with
  | ok a s => rfl
  | error e s => rfl

theorem Blind.foldlM {f : β → α → Step Store β} (each : ∀ b a, Blind (f b a) (f b a)) (b : β)
    (l : List α) : Blind (l.foldlM f b) (l.foldlM f b) := by
  induction l generalizing b with
  | nil => exact blind_pure b
  | cons a rest ih =>
    rw [List.foldlM_cons]
    exact (each b a).bind fun next => ih next

theorem blind_processPending (cfg : JobConfig) :
    Blind (processPending Store.backend cfg) (processPending Store.backend cfg) := by
  unfold processPending
  refine (blind_ask fun _ => rfl).bind fun pending => Blind.foldlM (fun summary trigger => ?_) _ _
  exact (blind_process cfg trigger.id).attempt.bind fun result => blind_pure (summary.count result)

/-! ## Two stores -/

/-- Two ends of a step: the same answer or the same failure, and states that differ at most in what
sources say of their types. -/
inductive SameEnd :
    EStateM.Result StoreError (JobState Store) α →
      EStateM.Result StoreError (JobState Store) α → Prop
  | ok {s s' : JobState Store} (a : α) (same : s.SameButTypes s') : SameEnd (.ok a s) (.ok a s')
  | error {s s' : JobState Store} (e : StoreError) (same : s.SameButTypes s') :
    SameEnd (.error e s) (.error e s')

theorem Blind.sameEnd {x : Step Store α} (blind : Blind x x) {s s' : JobState Store}
    (same : s.SameButTypes s') : SameEnd (x s) (x s') := by
  have ends : mapState (JobState.through Store.typed) (x s) =
      mapState (JobState.through Store.typed) (x s') := by
    rw [← blind s, ← blind s', JobState.through_typed_eq_iff.2 same]
  cases left : x s with
  | ok a t =>
    cases right : x s' with
    | ok a' t' =>
      rw [left, right, mapState, mapState, EStateM.Result.ok.injEq] at ends
      obtain ⟨rfl, states⟩ := ends
      exact .ok a (JobState.through_typed_eq_iff.1 states)
    | error e' t' =>
      rw [left, right] at ends
      cases ends
  | error e t =>
    cases right : x s' with
    | ok a' t' =>
      rw [left, right] at ends
      cases ends
    | error e' t' =>
      rw [left, right, mapState, mapState, EStateM.Result.error.injEq] at ends
      obtain ⟨rfl, states⟩ := ends
      exact .error e (JobState.through_typed_eq_iff.1 states)

/-- Over two stores that differ at most in what sources say of their types, a trigger ends in the
same way, and so does a run over all pending triggers; the stores again differ in nothing else. -/
theorem process_sameButTypes {s s' : JobState Store} (same : s.SameButTypes s') :
    (∀ id, SameEnd (process Store.backend cfg id s) (process Store.backend cfg id s')) ∧
      SameEnd (processPending Store.backend cfg s) (processPending Store.backend cfg s') :=
  ⟨fun id => (blind_process cfg id).sameEnd same, (blind_processPending cfg).sameEnd same⟩

/-- A store with the sample source, which has the given filter data, and a trigger for shoes and for
sources of its type. -/
def sampleClaiming (filterData : FilterMap) : JobState Store :=
  let filters := StringMap.ofList [("product", ["shoes"]), (Source.typeKey, ["event"])]
  [.addSource { Sample.source with filterData },
    .addTrigger { sampleTrigger "trigger1" with filters := .anyOf [filters] }].foldl
    (step sampleConfig) ⟨{}, []⟩

/-- A source that claims to have been followed gets the same triggers as one that claims nothing. -/
theorem process_sameButTypes_sample :
    let shoes : FilterMap := StringMap.ofList [("product", ["shoes", "hats"])]
    let claiming := sampleClaiming (shoes.insert Source.typeKey ["navigation"])
    let honest := sampleClaiming shoes
    claiming.SameButTypes honest ∧
      ∃ s s',
        process Store.backend sampleConfig "trigger1" claiming = .ok .attributed s ∧
          process Store.backend sampleConfig "trigger1" honest = .ok .attributed s' ∧
            s.SameButTypes s' := by
  intro shoes claiming honest
  have same : claiming.SameButTypes honest := by
    refine ⟨⟨⟨.cons ⟨fun key other => ?_, rfl⟩ .nil, rfl, rfl, rfl, rfl⟩, .none⟩, rfl⟩
    show (shoes.insert Source.typeKey ["navigation"]).get? key = shoes.get? key
    rw [StringMap.get?_insert, if_neg other]
  have attributed : EStateM.run' (process Store.backend sampleConfig "trigger1") honest =
      some .attributed := by
    cbv
  have ends := (@process_sameButTypes sampleConfig claiming honest same).1 "trigger1"
  refine ⟨same, ?_⟩
  rw [EStateM.run', EStateM.run] at attributed
  generalize process Store.backend sampleConfig "trigger1" claiming = left at ends ⊢
  generalize process Store.backend sampleConfig "trigger1" honest = right at ends attributed ⊢
  cases ends with
  | ok outcome after =>
    cases attributed
    exact ⟨_, _, rfl, rfl, after⟩
  | error e after => cases attributed

end Job

end AttributionReporting
