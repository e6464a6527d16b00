import AttributionReporting.Proofs.Job.Locality
import AttributionReporting.Proofs.Job.Terminal
import Mathlib

/-!
# Triggers that do not interfere

Two triggers of different enrollments, neither of which has a source that lists the destination of
the other's trigger, may be processed in either order (`independent_commute`). The proof looks at
the records without one of the enrollments (`Records.SameWithout`). There an attempt at a trigger of
this enrollment is not seen (`Independent.without_dealWith`), and an attempt at a trigger that is
independent of it does what it would do if the enrollment were not there
(`Independent.dealWith_congr`). So without either of the enrollments both orders lead to the same,
and this determines the records up to the order of reports and attributions of different sources
(`Records.Owned.sameBySource`).
-/

namespace AttributionReporting

/-! ## Records told apart by enrollment -/

/-- Without an enrollment, the records differ in nothing but delays. -/
def Records.SameWithout (e : String) (r r' : Records) : Prop :=
  (r.without e).withoutDelays = (r'.without e).withoutDelays

/-- The records are the same, up to delays and to the order among reports and attributions of
different sources. -/
structure Records.SameBySource (r r' : Records) : Prop where
  sources : r.sources = r'.sources
  triggers : r.triggers = r'.triggers
  eventReports : ∀ id, r.eventReportsOf id = r'.eventReportsOf id
  aggregateReports : ∀ id, (r.aggregateReportsOf id).map AggregateReport.withoutDelay =
    (r'.aggregateReportsOf id).map AggregateReport.withoutDelay
  attributions : ∀ id, r.attributionsOf id = r'.attributionsOf id

theorem Records.SameBySource.refl (r : Records) : r.SameBySource r :=
  ⟨rfl, rfl, fun _ => rfl, fun _ => rfl, fun _ => rfl⟩

theorem Records.without_withoutDelays (r : Records) (e : String) :
    (r.without e).withoutDelays = r.withoutDelays.without e := by
  unfold without withoutDelays
  rw [List.filter_map]
  rfl

theorem Records.aggregateReportsOf_withoutDelays (r : Records) (id : String) :
    r.withoutDelays.aggregateReportsOf id =
      (r.aggregateReportsOf id).map AggregateReport.withoutDelay := by
  unfold aggregateReportsOf withoutDelays
  rw [List.filter_map]
  rfl

section

variable {α : Type} {key enrollment : α → String} {e f : String} {l l' : List α}

/-- Records with distinct keys are determined by what they are without one enrollment and without
another. -/
theorem eq_of_filter_eq (ne : e ≠ f) (distinct : (l'.map key).Nodup)
    (keys : l.map key = l'.map key)
    (same_e : l.filter (enrollment · != e) = l'.filter (enrollment · != e))
    (same_f : l.filter (enrollment · != f) = l'.filter (enrollment · != f)) : l = l' := by
  have sub : ∀ a ∈ l, a ∈ l' := by
    intro a mem
    by_cases own : enrollment a = e
    · have stays : a ∈ l.filter (enrollment · != f) :=
        List.mem_filter.2 ⟨mem, bne_iff_ne.2 (own ▸ ne)⟩
      exact List.mem_of_mem_filter (same_f ▸ stays)
    · have stays : a ∈ l.filter (enrollment · != e) := List.mem_filter.2 ⟨mem, bne_iff_ne.2 own⟩
      exact List.mem_of_mem_filter (same_e ▸ stays)
  have length : l.length = l'.length := by
    rw [← List.length_map key, keys, List.length_map]
  refine List.ext_getElem length fun i hi hi' => ?_
  apply List.inj_on_of_nodup_map distinct (sub _ (List.getElem_mem hi)) (List.getElem_mem hi')
  have at_i := List.getElem_of_eq keys (by rwa [List.length_map])
  rwa [List.getElem_map, List.getElem_map] at at_i

/-- What has all its records in one enrollment is the same if it is without any other. -/
theorem filter_eq_of_home {p : α → Bool} {home : Option String} (ne : e ≠ f)
    (mine : ∀ a ∈ l, p a = true → home = some (enrollment a))
    (mine' : ∀ a ∈ l', p a = true → home = some (enrollment a))
    (same_e : l.filter (enrollment · != e) = l'.filter (enrollment · != e))
    (same_f : l.filter (enrollment · != f) = l'.filter (enrollment · != f)) :
    l.filter p = l'.filter p := by
  have elsewhere {g : String} (away : home ≠ some g)
      (same : l.filter (enrollment · != g) = l'.filter (enrollment · != g)) :
      l.filter p = l'.filter p := by
    have stays {l : List α} (mine : ∀ a ∈ l, p a = true → home = some (enrollment a)) :
        (l.filter (enrollment · != g)).filter p = l.filter p :=
      filter_filter_of_imp fun a mem holds => bne_iff_ne.2 fun own =>
        away ((mine a mem holds).trans (congrArg some own))
    rw [← stays mine, same, stays mine']
  by_cases at_e : home = some e
  · exact elsewhere (fun at_f => ne (Option.some.inj (at_e.symm.trans at_f))) same_f
  · exact elsewhere at_e same_e

end

/-- The enrollment of a source. -/
def Records.home (r : Records) (sourceId : String) : Option String :=
  (r.source? sourceId).map (·.enrollmentId)

namespace Records.Owned

variable {r r' : Records} {e f : String}

theorem home_eq (owned : r.Owned) {source : Source} (stored : source ∈ r.sources) :
    r.home source.id = some source.enrollmentId := by
  unfold home source?
  rw [find?_of_nodup owned.keyed.sources stored]
  rfl

theorem home_of_event (owned : r.Owned) {report : EventReport} (mem : report ∈ r.eventReports) :
    r.home report.sourceId = some report.enrollmentId := by
  obtain ⟨source, stored, same, issues, -⟩ := owned.of_event mem
  rw [← same, ← issues.enrollment, owned.home_eq stored]

theorem home_of_aggregate (owned : r.Owned) {report : AggregateReport}
    (mem : report ∈ r.withoutDelays.aggregateReports) :
    r.home report.sourceId = some report.enrollmentId := by
  obtain ⟨delayed, before, rfl⟩ := List.mem_map.1 mem
  obtain ⟨source, stored, same, issues, -⟩ := owned.of_aggregate before
  show r.home delayed.sourceId = some delayed.enrollmentId
  rw [← same, ← issues.enrollment, owned.home_eq stored]

theorem home_of_attribution (owned : r.Owned) {a : Attribution} (mem : a ∈ r.attributions) :
    r.home a.sourceId = some a.enrollmentId := by
  obtain ⟨source, stored, recorded⟩ := owned.attributions a mem
  rw [← recorded.sourceId, ← recorded.enrollment, owned.home_eq stored]

/-- Records that are the same without one enrollment and without another are the same. -/
theorem sameBySource (owned : r.Owned) (owned' : r'.Owned) (ne : e ≠ f)
    (sources : r.sources.map Source.id = r'.sources.map Source.id)
    (triggers : r.triggers.map Trigger.id = r'.triggers.map Trigger.id)
    (same_e : SameWithout e r r') (same_f : SameWithout f r r') : r.SameBySource r' := by
  unfold SameWithout at same_e same_f
  rw [without_withoutDelays, without_withoutDelays] at same_e same_f
  obtain ⟨sources_e, triggers_e, events_e, aggregates_e, attributions_e⟩ := Records.ext_iff.1 same_e
  obtain ⟨sources_f, triggers_f, events_f, aggregates_f, attributions_f⟩ := Records.ext_iff.1 same_f
  have sources_eq : r.sources = r'.sources :=
    eq_of_filter_eq ne owned'.keyed.sources sources sources_e sources_f
  have homes (id : String) : r.home id = r'.home id := by
    unfold home source?
    rw [sources_eq]
  refine ⟨sources_eq, eq_of_filter_eq ne owned'.keyed.triggers triggers triggers_e triggers_f,
    fun id => ?_, fun id => ?_, fun id => ?_⟩
  · exact filter_eq_of_home ne
      (fun report mem own => beq_iff_eq.1 own ▸ owned.home_of_event mem)
      (fun report mem own => homes id ▸ beq_iff_eq.1 own ▸ owned'.home_of_event mem)
      events_e events_f
  · rw [← aggregateReportsOf_withoutDelays, ← aggregateReportsOf_withoutDelays]
    exact filter_eq_of_home ne
      (fun report mem own => beq_iff_eq.1 own ▸ owned.home_of_aggregate mem)
      (fun report mem own => homes id ▸ beq_iff_eq.1 own ▸ owned'.home_of_aggregate mem)
      aggregates_e aggregates_f
  · exact filter_eq_of_home ne
      (fun a mem own => beq_iff_eq.1 own ▸ owned.home_of_attribution mem)
      (fun a mem own => homes id ▸ beq_iff_eq.1 own ▸ owned'.home_of_attribution mem)
      attributions_e attributions_f

end Records.Owned

namespace Job

variable {cfg : JobConfig} {r r' : Records} {t : Trigger} {id e f : String}

/-! ## What becomes of a trigger -/

/-- How carrying out a plan ends, and with what records: when it fails, they stay. -/
def Plan.carryOut (plan : Plan TriggerOutcome) (r : Records) : TriggerResult × Records :=
  match performAll plan.writes r with
  | .ok _ r' => (.ok plan.value, r')
  | .error e _ => (.error e, r)

namespace Plan

variable {plan plan' : Plan TriggerOutcome}

theorem carryOut_withoutDelays (same_plan : plan.SameWithoutDelays plan')
    (same : r.withoutDelays = r'.withoutDelays) :
    (plan.carryOut r).1 = (plan'.carryOut r').1 ∧
      (plan.carryOut r).2.withoutDelays = (plan'.carryOut r').2.withoutDelays := by
  obtain ⟨value, writes⟩ := same_plan
  have both := performAll_withoutDelays writes same
  unfold carryOut
  rcases performed : performAll plan.writes r with ⟨_, r₁⟩ | ⟨e, r₁⟩ <;>
    rcases performed' : performAll plan'.writes r' with ⟨_, r₁'⟩ | ⟨e', r₁'⟩ <;>
      rw [performed, performed'] at both
  · exact ⟨congrArg Except.ok value, (EStateM.Result.ok.inj both).2⟩
  · cases both
  · cases both
  · exact ⟨congrArg Except.error (EStateM.Result.error.inj both).1, same⟩

theorem carryOut_without (within : ∀ w ∈ plan.writes, w.Within e (r.without e)) (ne : e ≠ f) :
    plan.carryOut (r.without f) = ((plan.carryOut r).1, (plan.carryOut r).2.without f) := by
  unfold carryOut
  rw [performAll_without within ne]
  cases performAll plan.writes r <;> rfl

theorem without_carryOut (within : ∀ w ∈ plan.writes, w.Within e (r.without e)) :
    (plan.carryOut r).2.without e = r.without e := by
  unfold carryOut
  cases performed : performAll plan.writes r with
  | ok _ r₁ => exact (keeps_without_performAll within).ok rfl performed
  | error => rfl

end Plan

/-- How an attempt at a stored trigger ends, and with what records. -/
def dealWith (cfg : JobConfig) (r : Records) (trigger : Trigger) (draws : Draws) :
    TriggerResult × Records :=
  (triggerPlan cfg r trigger draws).carryOut r

theorem attempt_of_found {s : JobState Store} (closed : s.store.snapshot = none)
    (found : s.store.records.trigger? id = some t) :
    ∃ draws, attempt (process Store.backend cfg id) s =
      .ok (dealWith cfg s.store.records t s.draws).1
        ⟨s.store.withRecords (dealWith cfg s.store.records t s.draws).2, draws⟩ := by
  unfold attempt dealWith Plan.carryOut
  rcases performed : performAll (triggerPlan cfg s.store.records t s.draws).writes
    s.store.records with ⟨⟨⟩, r⟩ | ⟨e, r⟩
  · rw [process_of_performAll closed found performed]
    exact ⟨_, rfl⟩
  · obtain ⟨draws, failed⟩ := process_of_performAll_error closed found performed
    rw [failed]
    exact ⟨draws, rfl⟩

theorem attempted_dealWith (found : r.trigger? id = some t) (draws : Draws) :
    Attempted cfg id r (dealWith cfg r t draws).2 := by
  obtain ⟨_, ran⟩ := @attempt_of_found cfg t id ⟨⟨r, none⟩, draws⟩ rfl found
  exact .intro Backend.wraps_self (works_self _) rfl ran rfl

/-! ## Triggers of other enrollments -/

/-- The trigger is stored and the enrollment is apart from it, among records that came about while
sources were registered once and with ids without colons. -/
structure Independent (cfg : JobConfig) (e : String) (t : Trigger) (r : Records) : Prop where
  life : Life cfg (· = {}) (Registers (Colonless ·.id)) r
  stored : t ∈ r.triggers
  apart : r.Apart e t

namespace Independent

variable {t' : Trigger}

theorem owned (h : Independent cfg e t r) : r.Owned := h.life.owned

theorem found (h : Independent cfg e t r) : r.trigger? t.id = some t :=
  trigger?_of_mem h.owned.keyed.triggers h.stored

theorem attempted (h : Independent cfg e t r) (draws : Draws) :
    Attempted cfg t.id r (dealWith cfg r t draws).2 :=
  attempted_dealWith h.found draws

theorem without_dealWith (h : Independent cfg e t r) (draws : Draws) :
    (dealWith cfg r t draws).2.without t.enrollmentId = r.without t.enrollmentId :=
  Plan.without_carryOut fun _ => within_triggerPlan h.owned h.stored

theorem life_dealWith (h : Independent cfg e t r) (draws : Draws) :
    Life cfg (· = {}) (Registers (Colonless ·.id)) (dealWith cfg r t draws).2 := by
  have allowed : Registers (Colonless ·.id) r (.process t.id) := trivial
  exact .next h.life allowed (.process (h.attempted draws))

theorem ids_dealWith (h : Independent cfg e t r) (draws : Draws) :
    (dealWith cfg r t draws).2.sources.map Source.id = r.sources.map Source.id ∧
      (dealWith cfg r t draws).2.triggers.map Trigger.id = r.triggers.map Trigger.id := by
  have attempted := h.attempted draws
  have registered := congrArg (List.map Source.id) (attempted.map_asRegistered h.owned.keyed)
  rw [List.map_map, List.map_map] at registered
  exact ⟨registered, attempted.map_id_triggers h.owned.keyed⟩

/-- Whatever becomes of a trigger of the enrollment, a trigger that is independent of the enrollment
stays so. -/
theorem after (h : Independent cfg e t r) (own : Independent cfg f t' r)
    (enrollment : t'.enrollmentId = e) (draws : Draws) :
    Independent cfg e t (dealWith cfg r t' draws).2 := by
  have others := own.without_dealWith draws
  rw [enrollment] at others
  refine ⟨own.life_dealWith draws, ?_, h.apart.other, fun s hs mine => ?_⟩
  · have seen : t ∈ (r.without e).triggers :=
      List.mem_filter.2 ⟨h.stored, bne_iff_ne.2 h.apart.other⟩
    rw [← others] at seen
    exact List.mem_of_mem_filter seen
  · have registered := List.mem_map_of_mem (f := Source.asRegistered) hs
    rw [(own.attempted draws).map_asRegistered h.owned.keyed] at registered
    obtain ⟨before, stored, same⟩ := List.mem_map.1 registered
    rw [← Source.allDestinations_congr same]
    exact h.apart.unlisted before stored ((Source.enrollmentId_congr same).trans mine)

/-- What becomes of a trigger does not depend on the records of an enrollment that it is independent
of. -/
theorem dealWith_congr (h : Independent cfg e t r) (h' : Independent cfg e t r')
    (same : Records.SameWithout e r r') (draws draws' : Draws) :
    (dealWith cfg r t draws).1 = (dealWith cfg r' t draws').1 ∧
      Records.SameWithout e (dealWith cfg r t draws).2 (dealWith cfg r' t draws').2 := by
  have apart {r : Records} (h : Independent cfg e t r) (draws : Draws) :
      (triggerPlan cfg (r.without e) t draws).carryOut (r.without e) =
        ((dealWith cfg r t draws).1, (dealWith cfg r t draws).2.without e) := by
    rw [triggerPlan_without h.owned h.apart]
    exact Plan.carryOut_without (fun _ => within_triggerPlan h.owned h.stored) h.apart.other
  have plans := @triggerPlan_withoutDelays cfg _ _ same t draws draws'
  have both := Plan.carryOut_withoutDelays plans same
  rwa [apart h, apart h'] at both

/-- A trigger after another one ends as before it, and without the enrollment of the other one the
order of the two cannot be seen. -/
theorem diamond (h : Independent cfg t'.enrollmentId t r) (h' : Independent cfg t.enrollmentId t' r)
    (draws draws' : Draws) (next next' : Draws) :
    let first := dealWith cfg r t draws
    let second := dealWith cfg r t' draws'
    (dealWith cfg second.2 t next).1 = first.1 ∧
      Records.SameWithout t'.enrollmentId (dealWith cfg first.2 t' next').2
        (dealWith cfg second.2 t next).2 := by
  intro first second
  have unseen : Records.SameWithout t'.enrollmentId r second.2 :=
    congrArg Records.withoutDelays (h'.without_dealWith draws').symm
  obtain ⟨result, same⟩ := h.dealWith_congr (h.after h' rfl draws') unseen draws next
  refine ⟨result.symm, .trans ?_ same⟩
  exact congrArg Records.withoutDelays ((h'.after h rfl draws).without_dealWith next')

/-- Attempts at one trigger and then at another. -/
theorem attempts_eq (h : Independent cfg t'.enrollmentId t r)
    (h' : Independent cfg t.enrollmentId t' r) (draws : Draws) :
    let first := dealWith cfg r t draws
    ∃ next last, attempts Store.backend cfg [t.id, t'.id] ⟨⟨r, none⟩, draws⟩ =
      .ok [(t.id, first.1), (t'.id, (dealWith cfg first.2 t' next).1)]
        ⟨⟨(dealWith cfg first.2 t' next).2, none⟩, last⟩ := by
  intro first
  obtain ⟨next, ran⟩ := @attempt_of_found cfg t t.id ⟨⟨r, none⟩, draws⟩ rfl h.found
  obtain ⟨last, ran'⟩ := @attempt_of_found cfg t' t'.id ⟨⟨first.2, none⟩, next⟩ rfl
    (h'.after h rfl draws).found
  refine ⟨next, last, ?_⟩
  rw [attempts_cons ran, Store.withRecords, attempts_cons ran']
  rfl

end Independent

/-- Two triggers that are independent of each other's enrollments end in the same way and lead to
the same records, whichever is processed first. -/
theorem independent_commute {s : JobState Store} {id₁ id₂ : String} {t₁ t₂ : Trigger}
    (life : Life cfg (· = {}) (Registers (Colonless ·.id)) s.store.records)
    (found₁ : s.store.records.trigger? id₁ = some t₁)
    (found₂ : s.store.records.trigger? id₂ = some t₂)
    (apart₁ : s.store.records.Apart t₂.enrollmentId t₁)
    (apart₂ : s.store.records.Apart t₁.enrollmentId t₂) :
    ∃ result₁ result₂ s₁₂ s₂₁,
      attempts Store.backend cfg [id₁, id₂] s = .ok [(id₁, result₁), (id₂, result₂)] s₁₂ ∧
        attempts Store.backend cfg [id₂, id₁] s = .ok [(id₂, result₂), (id₁, result₁)] s₂₁ ∧
          s₁₂.store.snapshot = s₂₁.store.snapshot ∧
            s₁₂.store.records.SameBySource s₂₁.store.records := by
  obtain ⟨⟨r, snapshot⟩, draws⟩ := s
  have h₁ : Independent cfg t₂.enrollmentId t₁ r :=
    ⟨life, List.mem_of_find?_eq_some found₁, apart₁⟩
  have h₂ : Independent cfg t₁.enrollmentId t₂ r :=
    ⟨life, List.mem_of_find?_eq_some found₂, apart₂⟩
  obtain rfl := id_of_trigger? found₁
  obtain rfl := id_of_trigger? found₂
  cases snapshot with
  | some records =>
    -- while a transaction is open every attempt fails
    have fails (id : String) : attempt (process Store.backend cfg id)
        ⟨⟨r, some records⟩, draws⟩ = .ok (.error .transactionInProgress)
          ⟨⟨r, some records⟩, draws⟩ := by
      unfold attempt
      rw [process_of_open cfg id rfl]
    have both (id id' : String) : attempts Store.backend cfg [id, id']
        ⟨⟨r, some records⟩, draws⟩ = .ok [(id, .error .transactionInProgress),
          (id', .error .transactionInProgress)] ⟨⟨r, some records⟩, draws⟩ := by
      rw [attempts_cons (fails id), attempts_cons (fails id')]
      rfl
    exact ⟨_, _, _, _, both t₁.id t₂.id, both t₂.id t₁.id, rfl, .refl r⟩
  | none =>
    obtain ⟨next₁, last₁, ran₁⟩ := h₁.attempts_eq h₂ draws
    obtain ⟨next₂, last₂, ran₂⟩ := h₂.attempts_eq h₁ draws
    obtain ⟨result₁, same₂⟩ := h₁.diamond h₂ draws draws next₂ next₁
    obtain ⟨result₂, same₁⟩ := h₂.diamond h₁ draws draws next₁ next₂
    have after₁ := h₂.after h₁ rfl draws
    have after₂ := h₁.after h₂ rfl draws
    rw [result₂] at ran₁
    rw [result₁] at ran₂
    obtain ⟨sources₁, triggers₁⟩ := h₁.ids_dealWith draws
    obtain ⟨sources₂, triggers₂⟩ := h₂.ids_dealWith draws
    obtain ⟨sources₁₂, triggers₁₂⟩ := after₁.ids_dealWith next₁
    obtain ⟨sources₂₁, triggers₂₁⟩ := after₂.ids_dealWith next₂
    refine ⟨_, _, _, _, ran₁, ran₂, rfl, ?_⟩
    refine (after₁.life_dealWith next₁).owned.sameBySource (after₂.life_dealWith next₂).owned
      apart₁.other.symm ?_ ?_ same₂ (Eq.symm same₁)
    · exact (sources₁₂.trans sources₁).trans (sources₂₁.trans sources₂).symm
    · exact (triggers₁₂.trans triggers₁).trans (triggers₂₁.trans triggers₂).symm

/-- A source and a trigger of an enrollment and a destination. -/
def sampleSourceFor (id enrollmentId destination : String) : Source :=
  { Sample.source with id, enrollmentId, appDestinations := [destination] }

def sampleTriggerFor (id enrollmentId destination : String) : Trigger :=
  { sampleTrigger id with enrollmentId, destination }

/-- Two enrollments with a source and a trigger each. -/
def sampleApart : JobState Store :=
  [.addSource (sampleSourceFor "source1" "enrollment1" "shop1"),
    .addSource (sampleSourceFor "source2" "enrollment2" "shop2"),
    .addTrigger (sampleTriggerFor "trigger1" "enrollment1" "shop1"),
    .addTrigger (sampleTriggerFor "trigger2" "enrollment2" "shop2")].foldl
    (step sampleConfig) ⟨{}, []⟩

theorem life_sampleApart :
    Life sampleConfig (· = {}) (Registers (Colonless ·.id)) sampleApart.store.records := by
  have reached : Reachable sampleConfig (· = {}) (Registers (Colonless ·.id)) sampleApart := by
    simp only [sampleApart, List.foldl_cons, List.foldl_nil]
    refine .step (.step (.step (.step (.start rfl) ?_) ?_) ?_) ?_
    · exact ⟨List.not_mem_nil, by unfold Colonless; decide⟩
    · exact ⟨by decide, by unfold Colonless; decide⟩
    · trivial
    · trivial
  exact reached.life

/-- Both triggers are attributed, in either order, and the store is the same in the end. -/
theorem independent_commute_sample :
    ∃ s₁₂ s₂₁,
      attempts Store.backend sampleConfig ["trigger1", "trigger2"] sampleApart =
          .ok [("trigger1", .ok .attributed), ("trigger2", .ok .attributed)] s₁₂ ∧
        attempts Store.backend sampleConfig ["trigger2", "trigger1"] sampleApart =
          .ok [("trigger2", .ok .attributed), ("trigger1", .ok .attributed)] s₂₁ ∧
          s₁₂.store.records.SameBySource s₂₁.store.records := by
  have apart₁ : sampleApart.store.records.Apart "enrollment2"
      (sampleTriggerFor "trigger1" "enrollment1" "shop1") := ⟨by decide, by decide⟩
  have apart₂ : sampleApart.store.records.Apart "enrollment1"
      (sampleTriggerFor "trigger2" "enrollment2" "shop2") := ⟨by decide, by decide⟩
  obtain ⟨result₁, result₂, s₁₂, s₂₁, ran₁, ran₂, -, same⟩ :=
    @independent_commute sampleConfig sampleApart "trigger1" "trigger2" _ _ life_sampleApart rfl
      rfl apart₁ apart₂
  -- each trigger is attributed when it is the first
  have ends₁ : EStateM.run' (attempt (process Store.backend sampleConfig "trigger1")) sampleApart =
      some (.ok .attributed) := by
    cbv
  have ends₂ : EStateM.run' (attempt (process Store.backend sampleConfig "trigger2")) sampleApart =
      some (.ok .attributed) := by
    cbv
  obtain ⟨_, _, _, first₁, -, eq₁⟩ := attempts_cons_eq_ok ran₁
  obtain ⟨_, _, _, first₂, -, eq₂⟩ := attempts_cons_eq_ok ran₂
  rw [EStateM.run', EStateM.run, first₁] at ends₁
  rw [EStateM.run', EStateM.run, first₂] at ends₂
  cases ends₁
  cases ends₂
  cases eq₁
  cases eq₂
  exact ⟨s₁₂, s₂₁, ran₁, ran₂, same⟩

end Job

end AttributionReporting
