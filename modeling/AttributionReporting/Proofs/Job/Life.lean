import AttributionReporting.Proofs.Job.Attempts
import AttributionReporting.Proofs.Job.Run

/-!
# The life of records over stores that fail

Attempts at triggers are made over stores of which any call but a rollback may fail (`Attempted`).
An attempt carries out the plan for its trigger or changes nothing, so that its trigger is ignored
or attributed or nothing happens (`Attempted.outcomes`). A `Life` of records is made of
registrations, changes of status and such attempts in any order. Ids stay distinct in it, and what
all these keep is kept (`Life.outcomes`, `Life.awards`). The states of a store that never fails are
a case of this (`Reachable.life`).
-/

namespace AttributionReporting

/-- The records with another status of an event report. -/
def Records.withReportStatus (r : Records) (id : String) (status : EventReportStatus) : Records :=
  { r with
    eventReports := r.eventReports.map fun report =>
      if report.id = id then { report with status } else report }

theorem Records.WellKeyed.setEventReportStatus {r r' : Records} (keyed : r.WellKeyed) {id : String}
    {status : EventReportStatus} (set : r.setEventReportStatus id status = .ok () r') :
    r' = r.withReportStatus id status := by
  unfold Records.setEventReportStatus at set
  rw [modifyKey?_of_nodup keyed.eventReports] at set
  split_ifs at set with found
  cases set
  rfl

theorem Records.WellKeyed.performAll {writes : List Write} {r r' : Records} (keyed : r.WellKeyed)
    (h : AttributionReporting.performAll writes r = .ok () r') : r'.WellKeyed :=
  (Keeps.forM fun w _ => Records.keeps_wellKeyed_perform w).ok keyed h

namespace Job

/-- An attempt at the trigger with an id takes the records from `before` to `after`. When it is the
commit that fails the records are as after a success, and `Attempted` does not say who closes the
transaction that stays open. -/
inductive Attempted (cfg : JobConfig) (id : String) (before after : Records) : Prop
  | intro {σ : Type} {view : σ → Store} {b : Backend σ} {s s' : JobState σ} {result : TriggerResult}
    (wraps : b.Wraps view)
    (rollback : Works view (b.transact .rollback) (Store.backend.transact .rollback))
    (closed : view s.store = ⟨before, none⟩) (ran : attempt (process b cfg id) s = .ok result s')
    (left : (view s'.store).records = after)

/-- What an event does to records, when it does not fail or is an attempt. -/
inductive Happens (cfg : JobConfig) : JobEvent → Records → Records → Prop
  | addSource {r : Records} (source : Source) :
    Happens cfg (.addSource source) r (r.addSource source)
  | addTrigger {r : Records} (trigger : Trigger) :
    Happens cfg (.addTrigger trigger) r (r.addTrigger trigger)
  | setReportStatus {r r' : Records} {id : String} {status : EventReportStatus}
    (set : r.setEventReportStatus id status = .ok () r') :
    Happens cfg (.setReportStatus id status) r r'
  | process {r r' : Records} {id : String} (attempted : Attempted cfg id r r') :
    Happens cfg (.process id) r r'

/-- The records that allowed events lead to. -/
inductive Life (cfg : JobConfig) (Start : Records → Prop) (Allowed : Records → JobEvent → Prop) :
    Records → Prop
  | start {r : Records} (h : Start r) : Life cfg Start Allowed r
  | next {r r' : Records} {event : JobEvent} (before : Life cfg Start Allowed r)
    (allowed : Allowed r event) (happens : Happens cfg event r r') : Life cfg Start Allowed r'

variable {cfg : JobConfig} {r r' : Records} {id : String} {Start : Records → Prop}
  {Allowed : Records → JobEvent → Prop}

theorem Life.mono {Start' : Records → Prop} (starts : ∀ r, Start r → Start' r)
    (h : Life cfg Start Allowed r) : Life cfg Start' Allowed r := by
  induction h with
  | start h => exact .start (starts _ h)
  | next _ allowed happens ih => exact .next ih allowed happens

theorem performed_of_process {s s' : JobState Store} {outcome : TriggerOutcome}
    (closed : s.store = ⟨r, none⟩) (h : process Store.backend cfg id s = .ok outcome s') :
    ∃ trigger draws, r.trigger? id = some trigger ∧
      performAll (triggerPlan cfg r trigger draws).writes r = .ok () s'.store.records := by
  obtain ⟨store, draws⟩ := s
  cases closed
  obtain ⟨trigger, r', found, performed, -, rfl⟩ := process_eq_ok rfl h
  exact ⟨trigger, draws, found, performed⟩

/-- An attempt changes nothing or carries out the plan for its trigger. -/
theorem Attempted.changes (h : Attempted cfg id r r') :
    r' = r ∨ ∃ trigger draws, r.trigger? id = some trigger ∧
      performAll (triggerPlan cfg r trigger draws).writes r = .ok () r' := by
  obtain @⟨_, _, _, s, _, _, wraps, rollback, closed, ran, rfl⟩ := h
  have ends := transactionally_cases wraps rollback (tracks_attributeTrigger wraps cfg id)
    (congrArg Store.snapshot closed)
  unfold attempt process at ran
  cases ends with
  | done outcome t ok same _ =>
    rw [ok] at ran
    cases ran
    exact .inr (performed_of_process closed same)
  | undone e t failed kept _ =>
    rw [failed] at ran
    cases ran
    rw [kept, closed]
    exact .inl rfl
  | stuck e t failed _ outcome same _ =>
    rw [failed] at ran
    cases ran
    exact .inr (performed_of_process closed same)

/-- An attempt changes nothing, or ignores a pending trigger or attributes it. -/
theorem Attempted.outcomes (keyed : r.WellKeyed) (h : Attempted cfg id r r') :
    r' = r ∨ ∃ trigger, r.trigger? id = some trigger ∧ trigger.status = .pending ∧
      r'.WellKeyed ∧ (r' = r.setTriggerStatus trigger.id .ignored ∨
        ∃ a : Award, a.Earned cfg trigger r ∧ r' = a.apply trigger r) := by
  rcases h.changes with same | ⟨trigger, draws, found, performed⟩
  · exact .inl same
  · have keyed' := keyed.performAll performed
    rcases performAll_triggerPlan_cases keyed performed with ⟨-, -, same⟩ | ⟨pending, -, eq⟩ |
      ⟨pending, -, attributed⟩
    · exact .inl same
    · exact .inr ⟨trigger, found, pending, keyed', .inl eq⟩
    · exact .inr ⟨trigger, found, pending, keyed', .inr attributed⟩

/-- An attempt leaves every source as it was registered. -/
theorem Attempted.map_asRegistered (keyed : r.WellKeyed) (h : Attempted cfg id r r') :
    r'.sources.map Source.asRegistered = r.sources.map Source.asRegistered := by
  rcases h.changes with rfl | ⟨trigger, draws, -, performed⟩
  · rfl
  · exact asRegistered_of_performAll performed
      fun w mem => keepsRules_triggerPlan cfg trigger draws keyed.sources mem

theorem Attempted.map_id_triggers (keyed : r.WellKeyed) (h : Attempted cfg id r r') :
    r'.triggers.map Trigger.id = r.triggers.map Trigger.id := by
  rcases h.outcomes keyed with rfl | ⟨trigger, -, -, -, rfl | ⟨a, -, rfl⟩⟩
  · rfl
  · exact r.map_id_setTriggerStatus trigger.id .ignored
  · exact r.map_id_setTriggerStatus trigger.id .attributed

/-- Attempts ignore pending triggers or attribute them. Together with registrations and changes of
status that makes up a life. -/
theorem Life.outcomes (inv : Records → Prop) (start : ∀ r, Start r → r.WellKeyed ∧ inv r)
    (addSource : ∀ r source, r.WellKeyed → inv r → Allowed r (.addSource source) →
      inv (r.addSource source))
    (addTrigger : ∀ r trigger, r.WellKeyed → inv r → Allowed r (.addTrigger trigger) →
      inv (r.addTrigger trigger))
    (setReportStatus : ∀ r id status, r.WellKeyed → inv r →
      Allowed r (.setReportStatus id status) → inv (r.withReportStatus id status))
    (ignored : ∀ r trigger, r.WellKeyed → inv r → trigger ∈ r.triggers →
      trigger.status = .pending → inv (r.setTriggerStatus trigger.id .ignored))
    (award : ∀ r trigger (a : Award), r.WellKeyed → inv r → trigger ∈ r.triggers →
      trigger.status = .pending → a.Earned cfg trigger r → (a.apply trigger r).WellKeyed →
        inv (a.apply trigger r))
    (h : Life cfg Start Allowed r) : r.WellKeyed ∧ inv r := by
  induction h with
  | start h => exact start _ h
  | @next r _ _ _ allowed happens ih =>
    obtain ⟨keyed, holds⟩ := ih
    cases happens with
    | addSource source => exact ⟨keyed.addSource source, addSource r source keyed holds allowed⟩
    | addTrigger trigger =>
      exact ⟨keyed.addTrigger trigger, addTrigger r trigger keyed holds allowed⟩
    | @setReportStatus _ _ id status set =>
      refine ⟨(Records.keeps_wellKeyed_setEventReportStatus id status).ok keyed set, ?_⟩
      rw [keyed.setEventReportStatus set]
      exact setReportStatus r id status keyed holds allowed
    | process attempted =>
      rcases attempted.outcomes keyed with rfl | ⟨trigger, found, pending, keyed', rfl | ended⟩
      · exact ⟨keyed, holds⟩
      · exact ⟨keyed', ignored r trigger keyed holds (List.mem_of_find?_eq_some found) pending⟩
      · obtain ⟨a, earned, rfl⟩ := ended
        exact ⟨keyed', award r trigger a keyed holds (List.mem_of_find?_eq_some found) pending
          earned keyed'⟩

theorem Life.wellKeyed (start : ∀ r, Start r → r.WellKeyed) (h : Life cfg Start Allowed r) :
    r.WellKeyed :=
  (h.outcomes (fun _ => True) (fun r h => ⟨start r h, trivial⟩) (fun _ _ _ _ _ => trivial)
    (fun _ _ _ _ _ => trivial) (fun _ _ _ _ _ _ => trivial) (fun _ _ _ _ _ _ => trivial)
    (fun _ _ _ _ _ _ _ _ _ => trivial)).1

/-- Awards change the records of a life, apart from registrations and changes of status. -/
theorem Life.awards (inv : Records → Prop) (start : ∀ r, Start r → r.WellKeyed ∧ inv r)
    (addSource : ∀ r source, r.WellKeyed → inv r → Allowed r (.addSource source) →
      inv (r.addSource source))
    (triggers : ∀ r triggers, inv r → inv { r with triggers })
    (setReportStatus : ∀ r id status, inv r → Allowed r (.setReportStatus id status) →
      inv (r.withReportStatus id status))
    (award : ∀ r trigger (a : Award), r.WellKeyed → inv r → a.Earned cfg trigger r →
      (a.apply trigger r).WellKeyed → inv (a.apply trigger r))
    (h : Life cfg Start Allowed r) : r.WellKeyed ∧ inv r :=
  h.outcomes inv start addSource (fun r _ _ holds _ => triggers r _ holds)
    (fun r id status _ holds => setReportStatus r id status holds)
    (fun r _ _ holds _ _ => triggers r _ holds)
    (fun r trigger a keyed holds _ _ => award r trigger a keyed holds)

/-! ## Stores that do not fail -/

/-- Over the store itself, an attempt at a trigger is what happens when it is processed. -/
theorem step_process_of_attempt {s s' : JobState Store} {result : TriggerResult}
    (ran : attempt (process Store.backend cfg id) s = .ok result s') :
    step cfg s (.process id) = s' := by
  unfold attempt at ran
  cases ended : process Store.backend cfg id s with
  | ok outcome t =>
    rw [ended] at ran
    cases ran
    simp only [step, ended]
  | error e t =>
    rw [ended] at ran
    cases ran
    simp only [step, ended]

theorem attempted_process {s : JobState Store} (closed : s.store.snapshot = none)
    (triggerId : String) :
    Attempted cfg triggerId s.store.records (step cfg s (.process triggerId)).store.records := by
  obtain ⟨result, s', ran⟩ := attempt_total (process Store.backend cfg triggerId) s
  have opening : id s.store = ⟨s.store.records, none⟩ := by
    rw [← closed]
    rfl
  rw [step_process_of_attempt ran]
  exact .intro Backend.wraps_self (works_self _) opening ran rfl

theorem Reachable.life {s : JobState Store} (h : Reachable cfg Start Allowed s) :
    Life cfg Start Allowed s.store.records := by
  induction h with
  | start h => exact .start h
  | @step s event before allowed ih =>
    cases event with
    | addSource source => exact .next ih allowed (.addSource source)
    | addTrigger trigger => exact .next ih allowed (.addTrigger trigger)
    | setReportStatus id status =>
      rcases set : s.store.records.setEventReportStatus id status with ⟨⟨⟩, r⟩ | ⟨e, r⟩
      · have changed : (Job.step cfg s (.setReportStatus id status)).store.records = r := by
          simp only [Job.step, Store.change, set]
        exact changed ▸ .next ih allowed (.setReportStatus set)
      · have same : (Job.step cfg s (.setReportStatus id status)).store.records =
            s.store.records := by
          rcases records_setReportStatus cfg s id status with same | ⟨reports, found, -⟩
          · exact same
          · unfold Records.setEventReportStatus at set
            rw [found] at set
            cases set
        exact same ▸ ih
    | process id =>
      cases open_ : s.store.snapshot with
      | none => exact .next ih allowed (.process (attempted_process open_ id))
      | some records =>
        have same : Job.step cfg s (.process id) = s := by
          simp only [Job.step, process_of_open cfg id open_]
        rwa [same]

end Job

end AttributionReporting
