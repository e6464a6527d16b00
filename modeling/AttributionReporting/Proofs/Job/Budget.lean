import AttributionReporting.Proofs.Job.Sourcewise

/-!
# The aggregate budget

A source that is registered with contributions `opening` has afterwards used exactly these and the
values in its aggregate reports, and so never more than its budget (`contributions_accounted`). The
test against the budget and the addition, which stops at the largest 32-bit number, are two
computations in different widths; they agree because what passes the test leaves the addition exact
(`addContributions_of_le`). Pending aggregate reports for a destination stay under their limit, too.
-/

namespace AttributionReporting

/-- The total of all contributions in some reports. -/
def reportedTotal (reports : List AggregateReport) : Nat :=
  (reports.map fun report => totalValue report.contributions).sum

theorem reportedTotal_append (reports more : List AggregateReport) :
    reportedTotal (reports ++ more) = reportedTotal reports + reportedTotal more := by
  unfold reportedTotal
  rw [List.map_append, List.sum_append]

namespace Job

/-- Within a 32-bit limit the contributions add up exactly. -/
theorem addContributions_of_le {used limit : UInt32} {total : Nat}
    (fits : used.toNat + total ≤ limit.toNat) :
    (addContributions used total).toNat = used.toNat + total := by
  have small := limit.toNat_lt
  unfold addContributions
  rw [UInt32.toNat_ofNat']
  omega

/-- A source registered with contributions within the budget. -/
def Opens (opening : String → UInt32) (limits : Limits) (source : Source) : Prop :=
  source.contributions = opening source.id ∧ opening source.id ≤ limits.maxContributions

/-- What a source has used is what it was registered with and what its reports contribute. -/
structure Accounted (opening : String → UInt32) (limits : Limits) (source : Source)
    (aggregates : List AggregateReport) : Prop where
  total : source.contributions.toNat = (opening source.id).toNat + reportedTotal aggregates
  within : source.contributions.toNat ≤ limits.maxContributions.toNat

variable {cfg : JobConfig} {r : Records} {source credited : Source} {trigger : Trigger}
  {opening : String → UInt32} {aggregate : Option AggregateReport} {reports : List AggregateReport}

/-- A credit on the aggregate path is accounted for. -/
theorem Accounted.of_credit (h : Accounted opening cfg.limits source reports)
    (same : credited.id = source.id)
    (credit : AggregateCredit cfg r source trigger credited aggregate) :
    Accounted opening cfg.limits credited (reports ++ aggregate.toList) := by
  cases credit with
  | nothing used _ inserts =>
    rw [inserts, Option.toList_none, List.append_nil]
    exact ⟨by rw [used, same, h.total], by rw [used]; exact h.within⟩
  | @report delay free _ used _ inserts =>
    obtain ⟨-, -, -, fits⟩ := aggregateObstacle?_eq_none free
    have exactly := addContributions_of_le fits
    have one : reportedTotal [aggregateReport source trigger delay] =
        totalValue (contributions source trigger) := Nat.add_zero _
    rw [← used] at exactly
    constructor
    · rw [exactly, inserts, Option.toList_some, reportedTotal_append, one, same, h.total,
        Nat.add_assoc]
    · rw [exactly]
      exact fits

theorem sourcewise_accounted (cfg : JobConfig) (opening : String → UInt32) :
    Sourcewise cfg fun source _ aggregates => Accounted opening cfg.limits source aggregates where
  ignored h := ⟨h.total, h.within⟩
  settled _ _ h := h
  credited earned h := h.of_credit earned.credited_id earned.aggregateCredit

theorem Opens.accounted (h : Opens opening cfg.limits source) :
    Accounted opening cfg.limits source [] := by
  obtain ⟨opens, within⟩ := h
  exact ⟨by rw [opens]; rfl, by rw [opens]; exact within⟩

/-! ## Destinations -/

/-- An award adds at most one aggregate report, and only where there is room for it. -/
theorem aggregateReportCount_apply_le {a : Award} (earned : a.Earned cfg trigger r)
    {destination : String}
    (room : r.aggregateReportCount destination ≤
      cfg.limits.maxAggregateReportsPerDestination.toNat) :
    (a.apply trigger r).aggregateReportCount destination ≤
      cfg.limits.maxAggregateReportsPerDestination.toNat := by
  have split : (a.apply trigger r).aggregateReportCount destination =
      r.aggregateReportCount destination + a.aggregate.toList.countP fun report =>
        report.status == .pending && report.destination == destination := List.countP_append
  rw [split]
  cases earned.aggregateCredit with
  | nothing _ _ inserts =>
    rw [inserts]
    exact room
  | @report delay _ gate _ _ inserts =>
    rw [inserts, Option.toList_some, List.countP_singleton]
    by_cases same : trigger.destination = destination
    · rw [same] at gate
      split_ifs
      · exact gate
      · exact room
    · have elsewhere : (aggregateReport a.winner trigger delay).destination ≠ destination := same
      rw [if_neg (by simpa using fun _ => elsewhere)]
      exact room

theorem Life.aggregateReportCount_le {P : Source → Prop}
    (h : Life cfg (Unreported P) (Registers P) r) (destination : String) :
    r.aggregateReportCount destination ≤
      cfg.limits.maxAggregateReportsPerDestination.toNat := by
  refine (h.awards (fun r => r.aggregateReportCount destination ≤
    cfg.limits.maxAggregateReportsPerDestination.toNat) ?_ ?_ ?_ ?_ ?_).2
  · intro r start
    refine ⟨start.keyed, ?_⟩
    unfold Records.aggregateReportCount
    rw [start.aggregateReports]
    exact Nat.zero_le _
  · exact fun r source _ inv _ => inv
  · exact fun r triggers inv => inv
  · exact fun r id status inv _ => inv
  · exact fun r trigger a _ inv earned _ => aggregateReportCount_apply_le earned inv

/-! ## Whole lives -/

/-- All through a life, what a source has used is accounted for by its aggregate reports and within
its budget, one more report would be added exactly, and no destination has too many reports. -/
theorem contributions_accounted
    (h : Life cfg (Unreported (Opens opening cfg.limits))
      (Registers (Opens opening cfg.limits)) r) :
    (∀ source ∈ r.sources,
      source.contributions.toNat =
          (opening source.id).toNat + reportedTotal (r.aggregateReportsOf source.id) ∧
        source.contributions.toNat ≤ cfg.limits.maxContributions.toNat ∧
        ∀ trigger, aggregateObstacle? source trigger cfg.limits = none →
          (addContributions source.contributions
              (totalValue (contributions source trigger))).toNat =
            source.contributions.toNat + totalValue (contributions source trigger)) ∧
      ∀ destination, r.aggregateReportCount destination ≤
        cfg.limits.maxAggregateReportsPerDestination.toNat := by
  obtain ⟨-, inv⟩ := h.eachSource (sourcewise_accounted cfg opening) fun _ => Opens.accounted
  refine ⟨fun source hs => ?_, h.aggregateReportCount_le⟩
  obtain ⟨total, within⟩ := inv.each source hs
  refine ⟨total, within, fun trigger free => ?_⟩
  obtain ⟨-, -, -, fits⟩ := aggregateObstacle?_eq_none free
  exact addContributions_of_le fits

/-- The sample source with one aggregation key, after some contributions. -/
def sampleSaver : Source :=
  { Sample.source with aggregationKeys := StringMap.ofList [("purchase", 1)], contributions := 5 }

/-- A trigger that contributes 100 under this key. -/
def sampleContributor : Trigger :=
  { Sample.trigger with
    aggregatableData := [⟨2, ["purchase"], .unconstrained, .unconstrained⟩]
    aggregateValues := StringMap.ofList [("purchase", 100)] }

/-- The store after both. -/
def sampleContributed : JobState Store :=
  [.addSource sampleSaver, .addTrigger sampleContributor, .process "trigger1"].foldl
    (step sampleConfig) ⟨{}, []⟩

theorem contributions_accounted_sample :
    sampleContributed.store.records.sources.map (·.contributions) = [105] ∧
      sampleContributed.store.records.aggregateReports.map (fun report =>
        totalValue report.contributions) = [100] ∧
      (∀ source ∈ sampleContributed.store.records.sources, source.contributions.toNat =
        5 + reportedTotal (sampleContributed.store.records.aggregateReportsOf source.id)) ∧
      ∀ destination, sampleContributed.store.records.aggregateReportCount destination ≤ 1024 := by
  have opens : Opens (fun _ => 5) sampleConfig.limits sampleSaver := by
    exact ⟨rfl, by decide⟩
  have reached : Reachable sampleConfig (Unreported (Opens (fun _ => 5) sampleConfig.limits))
      (Registers (Opens (fun _ => 5) sampleConfig.limits)) sampleContributed := by
    simp only [sampleContributed, List.foldl_cons, List.foldl_nil]
    refine .step (.step (.step (.start ?_) ?_) ?_) ?_
    · exact ⟨Records.wellKeyed_empty, rfl, rfl, fun _ none => absurd none List.not_mem_nil⟩
    · exact ⟨List.not_mem_nil, opens⟩
    · trivial
    · trivial
  obtain ⟨accounts, rooms⟩ := contributions_accounted reached.life
  exact ⟨by cbv, by cbv, fun source hs => (accounts source hs).1, rooms⟩

end Job

end AttributionReporting
