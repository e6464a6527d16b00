import AttributionReporting.Proofs.Store.Effects

/-!
# Writes within an enrollment

Every record belongs to an enrollment, and `Records.without` leaves one of them out. A write is
within an enrollment when it adds records of it or changes records whose ids no other enrollment
uses (`Write.Within`). Writes within an enrollment leave all other records as they are
(`keeps_without_performAll`), and they do what they do whether or not there are records of some
other enrollment (`performAll_without`).
-/

namespace AttributionReporting

/-- The records without those of an enrollment. -/
def Records.without (r : Records) (enrollmentId : String) : Records where
  sources := r.sources.filter (·.enrollmentId != enrollmentId)
  triggers := r.triggers.filter (·.enrollmentId != enrollmentId)
  eventReports := r.eventReports.filter (·.enrollmentId != enrollmentId)
  aggregateReports := r.aggregateReports.filter (·.enrollmentId != enrollmentId)
  attributions := r.attributions.filter (·.enrollmentId != enrollmentId)

/-- A write that adds records of an enrollment or changes records whose ids are not among those of
the others. -/
def Write.Within (enrollmentId : String) (others : Records) : Write → Prop
  | insertEventReport report =>
    report.enrollmentId = enrollmentId ∧ report.id ∉ others.eventReports.map EventReport.id
  | deleteEventReport id => id ∉ others.eventReports.map EventReport.id
  | insertAggregateReport report =>
    report.enrollmentId = enrollmentId ∧
      report.id ∉ others.aggregateReports.map AggregateReport.id
  | setEventDedupKeys id _ | setAggregateDedupKeys id _ | setContributions id _ |
    setReportSpec id _ => id ∉ others.sources.map Source.id
  | setSourceStatus ids _ => ∀ id ∈ ids, id ∉ others.sources.map Source.id
  | setTriggerStatus ids _ => ∀ id ∈ ids, id ∉ others.triggers.map Trigger.id
  | insertAttribution attribution => attribution.enrollmentId = enrollmentId

variable {e f id : String} {r others : Records}

/-! ## The other records stay -/

section

variable {α : Type} {key enrollment : α → String} {k : String} {l : List α}

theorem filter_append_of_eq {a : α} (own : enrollment a = e) :
    (l ++ [a]).filter (enrollment · != e) = l.filter (enrollment · != e) := by
  rw [List.filter_append, List.filter_cons_of_neg (by simp [own]), List.filter_nil,
    List.append_nil]

theorem filter_append_of_ne {a : α} (own : enrollment a = e) (ne : e ≠ f) :
    (l ++ [a]).filter (enrollment · != f) = l.filter (enrollment · != f) ++ [a] := by
  rw [List.filter_append, List.filter_cons_of_pos (by simpa [own] using ne), List.filter_nil]

/-- A record whose id is not among those of the others is not left out with a third enrollment. -/
theorem bne_of_notMem (ne : e ≠ f) (new : k ∉ (l.filter (enrollment · != e)).map key) :
    ∀ a ∈ l, key a = k → (enrollment a != f) = true := by
  intro a mem found
  have own : enrollment a = e := by simpa using notMem_map_filter_iff.1 new a mem found
  rw [own]
  simpa using ne

theorem any_filter_of_notMem (ne : e ≠ f) (new : k ∉ (l.filter (enrollment · != e)).map key) :
    (l.filter (enrollment · != f)).any (key · == k) = l.any (key · == k) := by
  have stays := bne_of_notMem ne new
  rw [Bool.eq_iff_iff]
  simp only [List.any_eq_true, List.mem_filter, beq_iff_eq]
  exact ⟨fun ⟨a, ⟨mem, _⟩, found⟩ => ⟨a, mem, found⟩,
    fun ⟨a, mem, found⟩ => ⟨a, ⟨mem, stays a mem found⟩, found⟩⟩

end

namespace Records

theorem keeps_without_updateSource {change : Source → Source}
    (same : ∀ s, (change s).enrollmentId = s.enrollmentId)
    (new : id ∉ others.sources.map Source.id) :
    Keeps (fun r => r.without e = others) (updateSource id change) := by
  refine .of_cases fun r eq => ?_
  unfold updateSource
  cases found : modifyKey? Source.id id change r.sources with
  | none => exact .inr ⟨_, rfl⟩
  | some sources =>
    rw [← eq] at new ⊢
    have apart : ∀ s ∈ r.sources, s.id = id → (s.enrollmentId != e) = false :=
      notMem_map_filter_iff.1 new
    have kept := filter_of_modifyKey? found (fun s => by rw [same]) apart
    exact .inl ⟨_, _, rfl, Records.ext kept rfl rfl rfl rfl⟩

theorem keeps_without_updateTrigger {change : Trigger → Trigger}
    (same : ∀ t, (change t).enrollmentId = t.enrollmentId)
    (new : id ∉ others.triggers.map Trigger.id) :
    Keeps (fun r => r.without e = others) (updateTrigger id change) := by
  refine .of_cases fun r eq => ?_
  unfold updateTrigger
  cases found : modifyKey? Trigger.id id change r.triggers with
  | none => exact .inr ⟨_, rfl⟩
  | some triggers =>
    rw [← eq] at new ⊢
    have apart : ∀ t ∈ r.triggers, t.id = id → (t.enrollmentId != e) = false :=
      notMem_map_filter_iff.1 new
    have kept := filter_of_modifyKey? found (fun t => by rw [same]) apart
    exact .inl ⟨_, _, rfl, Records.ext rfl kept rfl rfl rfl⟩

theorem keeps_without_insertEventReport {report : EventReport} (own : report.enrollmentId = e) :
    Keeps (fun r => r.without e = others) (insertEventReport report) := by
  refine .of_cases fun r eq => ?_
  unfold insertEventReport
  split_ifs with taken
  · exact .inr ⟨_, rfl⟩
  · have kept := filter_append_of_eq (l := r.eventReports) own
    exact .inl ⟨_, _, rfl, eq ▸ Records.ext rfl rfl kept rfl rfl⟩

theorem keeps_without_deleteEventReport (new : id ∉ others.eventReports.map EventReport.id) :
    Keeps (fun r => r.without e = others) (deleteEventReport id) := by
  refine .of_cases fun r eq => ?_
  unfold deleteEventReport
  cases found : removeKey? EventReport.id id r.eventReports with
  | none => exact .inr ⟨_, rfl⟩
  | some left =>
    rw [← eq] at new ⊢
    have apart : ∀ report ∈ r.eventReports, report.id = id → (report.enrollmentId != e) = false :=
      notMem_map_filter_iff.1 new
    have kept := filter_of_removeKey? found apart
    exact .inl ⟨_, _, rfl, Records.ext rfl rfl kept rfl rfl⟩

theorem keeps_without_insertAggregateReport {report : AggregateReport}
    (own : report.enrollmentId = e) :
    Keeps (fun r => r.without e = others) (insertAggregateReport report) := by
  refine .of_cases fun r eq => ?_
  unfold insertAggregateReport
  split_ifs with taken
  · exact .inr ⟨_, rfl⟩
  · have kept := filter_append_of_eq (l := r.aggregateReports) own
    exact .inl ⟨_, _, rfl, eq ▸ Records.ext rfl rfl rfl kept rfl⟩

end Records

theorem Write.Within.keeps {w : Write} (h : w.Within e others) :
    Keeps (fun r => r.without e = others) w.perform := by
  cases w with
  | insertEventReport report => exact Records.keeps_without_insertEventReport h.1
  | deleteEventReport id => exact Records.keeps_without_deleteEventReport h
  | insertAggregateReport report => exact Records.keeps_without_insertAggregateReport h.1
  | setEventDedupKeys | setAggregateDedupKeys | setContributions | setReportSpec =>
    exact Records.keeps_without_updateSource (fun _ => rfl) h
  | setSourceStatus ids status =>
    exact Keeps.forM fun id mem => Records.keeps_without_updateSource (fun _ => rfl) (h id mem)
  | setTriggerStatus ids status =>
    exact Keeps.forM fun id mem => Records.keeps_without_updateTrigger (fun _ => rfl) (h id mem)
  | insertAttribution attribution =>
    have own : attribution.enrollmentId = e := h
    exact .of_cases fun r eq => .inl ⟨_, _, rfl,
      eq ▸ Records.ext rfl rfl rfl rfl (filter_append_of_eq own)⟩

theorem keeps_without_performAll {writes : List Write} (h : ∀ w ∈ writes, w.Within e others) :
    Keeps (fun r => r.without e = others) (performAll writes) :=
  Keeps.forM fun w mem => (h w mem).keeps

/-! ## A third enrollment makes no difference -/

namespace Records

theorem updateSource_without (ne : e ≠ f) {change : Source → Source}
    (same : ∀ s, (change s).enrollmentId = s.enrollmentId)
    (new : id ∉ (r.without e).sources.map Source.id) :
    updateSource id change (r.without f) = mapState (·.without f) (updateSource id change r) := by
  have changed := modifyKey?_filter (f := change) (fun s => by rw [same]) (bne_of_notMem ne new)
  unfold updateSource
  rw [without, changed]
  cases modifyKey? Source.id id change r.sources <;> rfl

theorem updateTrigger_without (ne : e ≠ f) {change : Trigger → Trigger}
    (same : ∀ t, (change t).enrollmentId = t.enrollmentId)
    (new : id ∉ (r.without e).triggers.map Trigger.id) :
    updateTrigger id change (r.without f) = mapState (·.without f) (updateTrigger id change r) := by
  have changed := modifyKey?_filter (f := change) (fun t => by rw [same]) (bne_of_notMem ne new)
  unfold updateTrigger
  rw [without, changed]
  cases modifyKey? Trigger.id id change r.triggers <;> rfl

theorem insertEventReport_without (ne : e ≠ f) {report : EventReport}
    (own : report.enrollmentId = e)
    (new : report.id ∉ (r.without e).eventReports.map EventReport.id) :
    insertEventReport report (r.without f) =
      mapState (·.without f) (insertEventReport report r) := by
  have taken := any_filter_of_notMem ne new
  have added := filter_append_of_ne (l := r.eventReports) own ne
  unfold insertEventReport
  rw [without, taken]
  split_ifs
  · rfl
  · rw [mapState, without, added]

theorem deleteEventReport_without (ne : e ≠ f)
    (new : id ∉ (r.without e).eventReports.map EventReport.id) :
    deleteEventReport id (r.without f) = mapState (·.without f) (deleteEventReport id r) := by
  have removed := removeKey?_filter (bne_of_notMem ne new)
  unfold deleteEventReport
  rw [without, removed]
  cases removeKey? EventReport.id id r.eventReports <;> rfl

theorem insertAggregateReport_without (ne : e ≠ f) {report : AggregateReport}
    (own : report.enrollmentId = e)
    (new : report.id ∉ (r.without e).aggregateReports.map AggregateReport.id) :
    insertAggregateReport report (r.without f) =
      mapState (·.without f) (insertAggregateReport report r) := by
  have taken := any_filter_of_notMem ne new
  have added := filter_append_of_ne (l := r.aggregateReports) own ne
  unfold insertAggregateReport
  rw [without, taken]
  split_ifs
  · rfl
  · rw [mapState, without, added]

end Records

theorem Write.Within.perform_without {w : Write} (h : w.Within e (r.without e)) (ne : e ≠ f) :
    w.perform (r.without f) = mapState (·.without f) (w.perform r) := by
  cases w with
  | insertEventReport report => exact Records.insertEventReport_without ne h.1 h.2
  | deleteEventReport id => exact Records.deleteEventReport_without ne h
  | insertAggregateReport report => exact Records.insertAggregateReport_without ne h.1 h.2
  | setEventDedupKeys | setAggregateDedupKeys | setContributions | setReportSpec =>
    exact Records.updateSource_without ne (fun _ => rfl) h
  | setSourceStatus ids status =>
    have keeps (id : String) (mem : id ∈ ids) : Keeps (fun r' => r'.without e = r.without e)
        (Records.updateSource id fun s => { s with status }) :=
      Records.keeps_without_updateSource (fun _ => rfl) (h id mem)
    refine forM_mapState (·.without f) _ keeps (fun id mem r' same => ?_) rfl
    exact Records.updateSource_without ne (fun _ => rfl) (same ▸ h id mem)
  | setTriggerStatus ids status =>
    have keeps (id : String) (mem : id ∈ ids) : Keeps (fun r' => r'.without e = r.without e)
        (Records.updateTrigger id fun t => { t with status }) :=
      Records.keeps_without_updateTrigger (fun _ => rfl) (h id mem)
    refine forM_mapState (·.without f) _ keeps (fun id mem r' same => ?_) rfl
    exact Records.updateTrigger_without ne (fun _ => rfl) (same ▸ h id mem)
  | insertAttribution attribution =>
    have added := filter_append_of_ne (l := r.attributions) h ne
    rw [Write.perform, mapState]
    exact congrArg _ (Records.ext rfl rfl rfl rfl added.symm)

/-- Writes within an enrollment do the same to the records without another one. -/
theorem performAll_without {writes : List Write} (h : ∀ w ∈ writes, w.Within e (r.without e))
    (ne : e ≠ f) :
    performAll writes (r.without f) = mapState (·.without f) (performAll writes r) := by
  have keeps (w : Write) (mem : w ∈ writes) : Keeps (fun r' => r'.without e = r.without e)
      w.perform := (h w mem).keeps
  refine forM_mapState (·.without f) _ keeps (fun w mem r' same => ?_) rfl
  exact Write.Within.perform_without (same ▸ h w mem) ne

end AttributionReporting
