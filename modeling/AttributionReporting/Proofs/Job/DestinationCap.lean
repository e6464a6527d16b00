import AttributionReporting.Proofs.Job.Sourcewise

/-!
# Pending event reports for a destination

Before the event path reports anything, it compares the number of pending event reports for the
destination of the trigger with a limit. What it inserts then may be several reports, if the source
is flexible, and each of them counts for all destinations that the source lists. So a destination
may get more reports than the limit (`eventReportCap_exceeded`), but no more than follows from these
two causes (`eventReportCount_le`): every pending report has come through the gate of one of its
destinations (`Gates`), and through each gate there come at most as many as the limit, and what the
last trigger brings beyond the first of its reports.
-/

namespace AttributionReporting

/-! ## What one trigger brings -/

/-- The most event reports that one trigger may bring a source. -/
def Source.burst (s : Source) : Nat :=
  match s.reportSpec with
  | some spec => spec.maxReports
  | none => 1

theorem Source.burst_asRegistered (s : Source) : s.asRegistered.burst = s.burst := by
  unfold burst asRegistered
  cases s.reportSpec <;> rfl

theorem ReportSpec.maxReports_le (spec : ReportSpec) :
    spec.maxReports ≤ FlexibleConfig.maxReportsAllowed := by
  have valid := spec.valid
  unfold FlexibleConfig.validate at valid
  split_ifs at valid with tooMany
  exact Nat.not_lt.1 tooMany

theorem Source.burst_le (s : Source) : s.burst ≤ FlexibleConfig.maxReportsAllowed := by
  unfold burst
  split
  · exact ReportSpec.maxReports_le _
  · decide

/-- Whether a report is pending and goes to a destination. -/
def EventReport.isPendingFor (destination : String) (report : EventReport) : Bool :=
  report.status == .pending && report.destinations.contains destination

theorem EventReport.isPendingFor_iff {destination : String} {report : EventReport} :
    report.isPendingFor destination = true ↔
      report.status = .pending ∧ destination ∈ report.destinations := by
  simp [isPendingFor]

/-- Whether a report is pending, goes to a destination and has come through a gate. -/
def EventReport.isPendingThrough (gate : String → String) (destination through : String)
    (report : EventReport) : Bool :=
  report.isPendingFor destination && gate report.id == through

theorem EventReport.isPendingThrough_iff {gate : String → String} {destination through : String}
    {report : EventReport} :
    report.isPendingThrough gate destination through = true ↔
      (report.status = .pending ∧ destination ∈ report.destinations) ∧
        gate report.id = through := by
  rw [isPendingThrough, Bool.and_eq_true, isPendingFor_iff, beq_iff_eq]

theorem Source.allDestinations_congr {source source' : Source}
    (same : source'.asRegistered = source.asRegistered) :
    source'.allDestinations = source.allDestinations := by
  have eq := congrArg Source.allDestinations same
  exact eq

theorem Source.burst_congr {source source' : Source}
    (same : source'.asRegistered = source.asRegistered) : source'.burst = source.burst := by
  have eq := congrArg Source.burst same
  rwa [Source.burst_asRegistered, Source.burst_asRegistered] at eq

namespace Job

section

variable {cfg : JobConfig} {source : Source} {trigger : Trigger} {datum : EventTriggerDatum}
  {existing : List EventReport}

theorem length_insert_eventExchange_le :
    (eventExchange cfg source trigger datum existing).1.length ≤ source.burst := by
  unfold eventExchange
  split
  · next spec rules =>
    have burst : source.burst = spec.maxReports := by
      unfold Source.burst
      rw [rules]
    split
    · next next insert delete outcome =>
      obtain ⟨-, -, eq⟩ := ReportSpec.credit_eq_reports outcome
      obtain ⟨-, -, -, wanted, -⟩ := exists_kept_of_reconcile_eq eq
      refine wanted.length_le.trans ?_
      rw [openReports_eq_take, burst]
      exact (List.length_take_le _ _).trans (Nat.sub_le _ _)
    · exact Nat.zero_le _
    · exact Nat.zero_le _
  · next rules =>
    have burst : source.burst = 1 := by
      unfold Source.burst
      rw [rules]
    rw [burst]
    split
    · exact le_rfl
    · exact Nat.zero_le _

theorem destinations_insert_eventExchange {report : EventReport}
    (h : report ∈ (eventExchange cfg source trigger datum existing).1) :
    report.destinations = source.allDestinations := by
  unfold eventExchange at h
  split at h
  · split at h
    · next next insert delete outcome =>
      obtain ⟨-, -, eq⟩ := ReportSpec.credit_eq_reports outcome
      exact ReportSpec.destinations_of_mem_desired
        (mem_of_mem_openReports (mem_of_mem_insert eq h)).1
    · cases h
    · cases h
  · split at h
    · next decision =>
      obtain ⟨_, -, -, eq, -⟩ := decideStandardReport_eq_insert decision
      rw [List.mem_singleton.1 h, eq]
      rfl
    · cases h

end

/-! ## Gates -/

/-- Every report has come through the gate of one of its destinations. Of the pending reports for a
destination, not too many have come through the same gate. -/
structure Gates (limit : Nat) (r : Records) (gate : String → String) : Prop where
  sources : ∀ report ∈ r.eventReports, ∃ source ∈ r.sources,
    source.id = report.sourceId ∧ report.destinations = source.allDestinations
  listed : ∀ report ∈ r.eventReports, gate report.id ∈ report.destinations
  room : ∀ destination through most,
    (∀ source ∈ r.sources, destination ∈ source.allDestinations → source.burst ≤ most) →
      r.eventReports.countP (·.isPendingThrough gate destination through) ≤ limit + (most - 1)

variable {cfg : JobConfig} {r : Records} {trigger : Trigger} {a : Award}

theorem destination_mem_winner (valid : a.Valid trigger r) :
    trigger.destination ∈ a.winner.allDestinations := by
  obtain ⟨-, -, mem, -⟩ := Source.matchesTrigger_iff.1 valid.winner_matches
  unfold Source.allDestinations
  cases type : trigger.destinationType with
  | app =>
    rw [type] at mem
    exact List.mem_append_left _ mem
  | web =>
    rw [type] at mem
    exact List.mem_append_right _ mem

theorem EventCredit.destinations {source credited : Source} {deleted inserted : List EventReport}
    (h : EventCredit cfg r source trigger credited deleted inserted) {report : EventReport}
    (mem : report ∈ inserted) : report.destinations = source.allDestinations := by
  rcases h.exchanged with ⟨-, rfl⟩ | ⟨-, datum, -, rfl⟩
  · cases mem
  · exact destinations_insert_eventExchange mem

namespace Gates

variable {limit : Nat} {gate : String → String}

theorem of_no_reports (none : r.eventReports = []) (limit : Nat) (gate : String → String) :
    Gates limit r gate where
  sources := by simp [none]
  listed := by simp [none]
  room := by simp [none]

theorem addSource {source : Source} (h : Gates limit r gate)
    (new : source.id ∉ r.sources.map Source.id) : Gates limit (r.addSource source) gate := by
  have sources := Records.sources_addSource new
  refine ⟨fun report hr => ?_, h.listed, fun destination through most bound => ?_⟩
  · obtain ⟨s, hs, same⟩ := h.sources report hr
    exact ⟨s, sources ▸ List.mem_append_left _ hs, same⟩
  · refine h.room destination through most fun s hs => bound s ?_
    exact sources ▸ List.mem_append_left _ hs

theorem withReportStatus {id : String} {status : EventReportStatus} (h : Gates limit r gate)
    (cleared : ∀ report ∈ r.eventReports, report.id = id → status = .pending →
      report.status = .pending) :
    Gates limit (r.withReportStatus id status) gate := by
  refine ⟨fun report hr => ?_, fun report hr => ?_, fun destination through most bound => ?_⟩
  · obtain ⟨before, hb, rfl⟩ := List.mem_map.1 hr
    have stored := h.sources before hb
    split_ifs <;> exact stored
  · obtain ⟨before, hb, rfl⟩ := List.mem_map.1 hr
    have listed := h.listed before hb
    split_ifs <;> exact listed
  · refine le_trans ?_ (h.room destination through most bound)
    unfold Records.withReportStatus
    rw [List.countP_map]
    apply List.countP_mono_left
    intro report hr
    rw [Function.comp_apply]
    split_ifs with same
    · simp only [EventReport.isPendingThrough_iff]
      exact fun ⟨⟨pending, lists⟩, passed⟩ => ⟨⟨cleared report hr same pending, lists⟩, passed⟩
    · exact fun holds => holds

/-- At a gate everything that has come through it is counted. -/
theorem countP_le (h : Gates limit r gate) (destination through : String) :
    r.eventReports.countP (·.isPendingThrough gate destination through) ≤
      r.eventReportCount through := by
  refine List.countP_mono_left fun report hr holds => ?_
  obtain ⟨⟨pending, -⟩, rfl⟩ := EventReport.isPendingThrough_iff.1 holds
  exact EventReport.isPendingFor_iff.2 ⟨pending, h.listed report hr⟩

/-- The gates after an award: what it inserts comes through that of the destination of its
trigger. -/
def next (a : Award) (trigger : Trigger) (gate : String → String) : String → String := fun id =>
  if id ∈ a.inserted.map EventReport.id then trigger.destination else gate id

theorem next_of_inserted {report : EventReport} (h : report ∈ a.inserted) :
    next a trigger gate report.id = trigger.destination :=
  if_pos (List.mem_map_of_mem h)

theorem next_of_left (keyed : (a.apply trigger r).WellKeyed) {report : EventReport}
    (h : report ∈ remainingReports a.deleted r.eventReports) :
    next a trigger gate report.id = gate report.id := by
  refine if_neg fun taken => ?_
  have ids := keyed.eventReports
  change ((remainingReports a.deleted r.eventReports ++ a.inserted).map _).Nodup at ids
  rw [List.map_append] at ids
  exact (List.nodup_append.1 ids).2.2 _ (List.mem_map_of_mem h) _ taken rfl

/-- What an award inserts comes through one gate and goes to the destinations of the winner. -/
theorem countP_inserted_le (earned : a.Earned cfg trigger r) (destination through : String) :
    a.inserted.countP (·.isPendingThrough (next a trigger gate) destination through) ≤
      if trigger.destination = through ∧ destination ∈ a.winner.allDestinations then
        a.winner.burst
      else 0 := by
  split_ifs with passes
  · refine List.countP_le_length.trans ?_
    rcases earned.eventCredit.exchanged with ⟨-, none⟩ | ⟨-, datum, -, inserts⟩
    · rw [none]
      exact Nat.zero_le _
    · rw [inserts]
      exact length_insert_eventExchange_le
  · refine Nat.le_of_eq (List.countP_eq_zero.2 fun report hr holds => passes ?_)
    obtain ⟨⟨-, lists⟩, through⟩ := EventReport.isPendingThrough_iff.1 holds
    rw [next_of_inserted hr] at through
    rw [earned.eventCredit.destinations hr] at lists
    exact ⟨through, lists⟩

theorem countP_apply_le (gate : String → String) (keyed : (a.apply trigger r).WellKeyed)
    (earned : a.Earned cfg trigger r) (destination through : String) :
    (a.apply trigger r).eventReports.countP
        (·.isPendingThrough (next a trigger gate) destination through) ≤
      r.eventReports.countP (·.isPendingThrough gate destination through) +
        if trigger.destination = through ∧ destination ∈ a.winner.allDestinations then
          a.winner.burst
        else 0 := by
  have split : (a.apply trigger r).eventReports =
      remainingReports a.deleted r.eventReports ++ a.inserted := rfl
  rw [split, List.countP_append]
  refine Nat.add_le_add ?_ (countP_inserted_le earned destination through)
  refine le_trans (List.countP_mono_left fun report hr => ?_) List.filter_sublist.countP_le
  simp only [EventReport.isPendingThrough_iff, next_of_left keyed hr]
  exact fun holds => holds

theorem apply (h : Gates cfg.limits.maxEventReportsPerDestination.toNat r gate)
    (earned : a.Earned cfg trigger r) (keyed : r.WellKeyed)
    (keyed' : (a.apply trigger r).WellKeyed) :
    Gates cfg.limits.maxEventReportsPerDestination.toNat (a.apply trigger r)
      (next a trigger gate) := by
  refine ⟨fun report hr => ?_, fun report hr => ?_, fun destination through most bound => ?_⟩
  · rcases List.mem_append.1 hr with left | inserted
    · obtain ⟨source, hs, same, lists⟩ := h.sources report (List.mem_of_mem_filter left)
      obtain ⟨after, mem, registered⟩ := earned.exists_mem_apply keyed.sources hs
      exact ⟨after, mem, (Source.id_congr registered).trans same,
        lists.trans (Source.allDestinations_congr registered).symm⟩
    · obtain ⟨after, mem, registered⟩ := earned.exists_mem_apply keyed.sources earned.winner_mem
      exact ⟨after, mem, (Source.id_congr registered).trans (earned.inserted report inserted).symm,
        (earned.eventCredit.destinations inserted).trans
          (Source.allDestinations_congr registered).symm⟩
  · rcases List.mem_append.1 hr with left | inserted
    · rw [next_of_left keyed' left]
      exact h.listed report (List.mem_of_mem_filter left)
    · rw [next_of_inserted inserted, earned.eventCredit.destinations inserted]
      exact destination_mem_winner earned.toValid
  · have before : ∀ source ∈ r.sources, destination ∈ source.allDestinations →
        source.burst ≤ most := by
      intro source hs lists
      obtain ⟨after, mem, registered⟩ := earned.exists_mem_apply keyed.sources hs
      rw [← Source.burst_congr registered]
      exact bound after mem (Source.allDestinations_congr registered ▸ lists)
    have room := h.room destination through most before
    rcases earned.eventCredit.exchanged with ⟨-, none⟩ | ⟨gateOpen, -⟩
    · -- nothing comes in
      refine le_trans ?_ room
      show (remainingReports a.deleted r.eventReports ++ a.inserted).countP _ ≤ _
      have gates : next a trigger gate = gate := by
        funext id
        exact if_neg (by simp [none])
      rw [none, List.append_nil, gates]
      exact List.filter_sublist.countP_le
    · have count := countP_apply_le gate keyed' earned destination through
      split_ifs at count with passes
      · obtain ⟨rfl, lists⟩ := passes
        have counted := h.countP_le destination trigger.destination
        have mine := before a.winner earned.winner_mem lists
        omega
      · omega

end Gates

/-! ## Whole lives -/

/-- No source is registered twice, and no report becomes pending again. -/
def Clears (r : Records) : JobEvent → Prop
  | .addSource source => source.id ∉ r.sources.map Source.id
  | .setReportStatus id status =>
    ∀ report ∈ r.eventReports, report.id = id → status = .pending → report.status = .pending
  | .addTrigger _ | .process _ => True

theorem Life.gates (h : Life cfg (Unreported fun _ => True) Clears r) :
    ∃ gate, Gates cfg.limits.maxEventReportsPerDestination.toNat r gate := by
  refine (h.awards (fun r => ∃ gate, Gates cfg.limits.maxEventReportsPerDestination.toNat r gate)
    ?_ ?_ ?_ ?_ ?_).2
  · exact fun r start => ⟨start.keyed, id, .of_no_reports start.eventReports _ _⟩
  · exact fun r source _ ⟨gate, gates⟩ new => ⟨gate, gates.addSource new⟩
  · exact fun r triggers ⟨gate, gates⟩ => ⟨gate, gates.sources, gates.listed, gates.room⟩
  · exact fun r id status ⟨gate, gates⟩ cleared => ⟨gate, gates.withReportStatus cleared⟩
  · exact fun r trigger a keyed ⟨gate, gates⟩ earned keyed' =>
      ⟨_, gates.apply earned keyed keyed'⟩

/-- What is spread over some values, not too many for each, is not too many in all. -/
theorem countP_le_of_cover {α : Type} {f : α → String} {l : List α} {n : Nat} {values : List String}
    {p : α → Bool} (cover : ∀ a ∈ l, p a = true → f a ∈ values)
    (each : ∀ value, l.countP (fun a => p a && f a == value) ≤ n) :
    l.countP p ≤ values.length * n := by
  induction values generalizing p with
  | nil =>
    rw [List.countP_eq_zero.2 fun a ha holds => List.not_mem_nil (cover a ha holds)]
    exact Nat.zero_le _
  | cons value rest ih =>
    have others : l.countP (fun a => p a && f a != value) ≤ rest.length * n := by
      apply ih
      · intro a ha holds
        obtain ⟨holds, ne⟩ := Bool.and_eq_true_iff.1 holds
        exact (List.mem_cons.1 (cover a ha holds)).resolve_left (bne_iff_ne.1 ne)
      · intro other
        refine le_trans (List.countP_mono_left fun a _ holds => ?_) (each other)
        simp only [Bool.and_eq_true] at holds ⊢
        exact ⟨holds.1.1, holds.2⟩
    have split : l.countP p =
        l.countP (fun a => p a && f a == value) + l.countP (fun a => p a && f a != value) := by
      rw [List.countP_eq_countP_filter_add l p (fun a => f a == value), List.countP_filter,
        List.countP_filter]
      rfl
    have first := each value
    rw [split, List.length_cons, Nat.succ_mul]
    omega

/-- All through a life, the pending event reports for a destination are at most as many as the limit
and what one trigger may bring beyond its first report, for each destination that goes together with
it. If each source that lists the destination lists no other one and gets one report at a time, they
are at most as many as the limit. -/
theorem eventReportCount_le (h : Life cfg (Unreported fun _ => True) Clears r)
    (destination : String) :
    (∀ together : List String, ∀ most,
      (∀ source ∈ r.sources, destination ∈ source.allDestinations →
        source.allDestinations ⊆ together ∧ source.burst ≤ most) →
      r.eventReportCount destination ≤
        together.length * (cfg.limits.maxEventReportsPerDestination.toNat + (most - 1))) ∧
      (∀ together : List String,
        (∀ source ∈ r.sources, destination ∈ source.allDestinations →
          source.allDestinations ⊆ together) →
        r.eventReportCount destination ≤
          together.length * (cfg.limits.maxEventReportsPerDestination.toNat +
            (FlexibleConfig.maxReportsAllowed - 1))) ∧
      ((∀ source ∈ r.sources, destination ∈ source.allDestinations →
          source.allDestinations ⊆ [destination] ∧ source.burst ≤ 1) →
        r.eventReportCount destination ≤ cfg.limits.maxEventReportsPerDestination.toNat) := by
  obtain ⟨gate, gates⟩ := h.gates
  have bound : ∀ together : List String, ∀ most,
      (∀ source ∈ r.sources, destination ∈ source.allDestinations →
        source.allDestinations ⊆ together ∧ source.burst ≤ most) →
      r.eventReportCount destination ≤
        together.length * (cfg.limits.maxEventReportsPerDestination.toNat + (most - 1)) := by
    intro together most limited
    refine countP_le_of_cover (f := fun report => gate report.id) ?_ fun through => ?_
    · intro report hr pending
      obtain ⟨-, lists⟩ := EventReport.isPendingFor_iff.1 pending
      obtain ⟨source, hs, -, destinations⟩ := gates.sources report hr
      rw [destinations] at lists
      exact (limited source hs lists).1 (destinations ▸ gates.listed report hr)
    · exact gates.room destination through most fun source hs lists => (limited source hs lists).2
  refine ⟨bound, fun together covers => ?_, fun single => ?_⟩
  · exact bound together _ fun source hs lists => ⟨covers source hs lists, source.burst_le⟩
  · have := bound [destination] 1 single
    rwa [List.length_singleton, Nat.one_mul, Nat.sub_self, Nat.add_zero] at this

/-- Limits that admit one pending event report for each destination. -/
def sampleCapped : JobConfig :=
  { sampleConfig with limits := { Limits.default with maxEventReportsPerDestination := 1 } }

/-- Rules that add up the values of triggers and let reports be due at totals of 1 and 2. -/
def sampleRules : ReportSpec where
  config := ⟨[⟨[1], ⟨0, [Time.days 2]⟩, .valueSum, [1, 2]⟩], 2, none⟩
  valid := rfl
  history := []

/-- The store after a trigger whose value reaches both totals. -/
def sampleBurst : JobState Store :=
  [.addSource { Sample.source with reportSpec := some sampleRules },
    .addTrigger { Sample.trigger with eventData := [{ data := 1, value := 2 }] },
    .process "trigger1"].foldl (step sampleCapped) ⟨{}, []⟩

theorem life_sampleBurst :
    Life sampleCapped (Unreported fun _ => True) Clears sampleBurst.store.records := by
  have reached : Reachable sampleCapped (Unreported fun _ => True) Clears sampleBurst := by
    simp only [sampleBurst, List.foldl_cons, List.foldl_nil]
    refine .step (.step (.step (.start ?_) ?_) ?_) ?_
    · exact ⟨Records.wellKeyed_empty, rfl, rfl, fun _ _ => trivial⟩
    · exact List.not_mem_nil
    · trivial
    · trivial
  exact reached.life

/-- A site that goes together with the sample destination. -/
def sampleSite : String := "https://shop.example.com"

/-- The store after a report for the sample destination alone and one for both, the trigger of which
was on the site. -/
def sampleShared : JobState Store :=
  [.addSource Sample.source, .addTrigger (sampleTrigger "trigger1"), .process "trigger1",
    .addSource { Sample.source with id := "source2", webDestinations := [sampleSite] },
    .addTrigger
      { sampleTrigger "trigger2" with destination := sampleSite, destinationType := .web },
    .process "trigger2"].foldl (step sampleCapped) ⟨{}, []⟩

theorem life_sampleShared :
    Life sampleCapped (Unreported fun _ => True) Clears sampleShared.store.records := by
  have reached : Reachable sampleCapped (Unreported fun _ => True) Clears sampleShared := by
    simp only [sampleShared, List.foldl_cons, List.foldl_nil]
    refine .step (.step (.step (.step (.step (.step (.start ?_) ?_) ?_) ?_) ?_) ?_) ?_
    · exact ⟨Records.wellKeyed_empty, rfl, rfl, fun _ _ => trivial⟩
    · exact List.not_mem_nil
    · trivial
    · trivial
    · show "source2" ∉ List.map Source.id _
      decide +kernel
    · trivial
    · trivial
  exact reached.life

/-- Two pending reports for a destination where the limit is one: from one trigger, and from a
trigger on another destination. -/
theorem eventReportCap_exceeded :
    (Life sampleCapped (Unreported fun _ => True) Clears sampleBurst.store.records ∧
      sampleCapped.limits.maxEventReportsPerDestination.toNat <
        sampleBurst.store.records.eventReportCount Sample.destination) ∧
      Life sampleCapped (Unreported fun _ => True) Clears sampleShared.store.records ∧
        sampleCapped.limits.maxEventReportsPerDestination.toNat <
          sampleShared.store.records.eventReportCount Sample.destination :=
  ⟨⟨life_sampleBurst, by decide +kernel⟩, life_sampleShared, by decide +kernel⟩

/-- One trigger may bring two reports, which makes two at most. -/
theorem eventReportCount_le_sample :
    sampleBurst.store.records.eventReportCount Sample.destination ≤ 1 * (1 + (2 - 1)) := by
  have sources : sampleBurst.store.records.sources.map (fun source =>
      (source.allDestinations, source.burst)) = [([Sample.destination], 2)] := by
    decide +kernel
  refine (eventReportCount_le life_sampleBurst Sample.destination).1 [Sample.destination] 2 ?_
  intro source hs _
  have mem := List.mem_map_of_mem (f := fun source : Source =>
    (source.allDestinations, source.burst)) hs
  rw [sources, List.mem_singleton] at mem
  obtain ⟨destinations, burst⟩ := Prod.mk.inj mem
  exact ⟨destinations ▸ List.Subset.refl _, burst.le⟩

end Job

end AttributionReporting
