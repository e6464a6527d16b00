import AttributionReporting.Proofs.Flexible.Run
import Mathlib

/-!
# What a reconciliation comes to

The entries of a history are its triggers, each with the place at which it arrived. No two entries
have the same rank (`Outranks`), so there is one way to list them from the highest rank to the
lowest, and the desired reports are those of the entries in that order (`desired_eq_flatMap`).
`reconciliation_exact` says which slots are filled after a trigger that moves reports: those of the
locked reports and, as far as there is room, the first of the others, however the reports of the
source are listed and whichever of them repeat a slot.
-/

open scoped List

namespace AttributionReporting

/-! ## Ranks of entries -/

/-- Whether one entry of a history ranks above another: by its higher priority, else by its earlier
time, else because it arrived first. -/
def Outranks (a b : AttributedTrigger × Nat) : Prop :=
  b.1.priority < a.1.priority ∨
    (a.1.priority = b.1.priority ∧
      (a.1.time < b.1.time ∨ (a.1.time = b.1.time ∧ a.2 < b.2)))

instance (a b : AttributedTrigger × Nat) : Decidable (Outranks a b) :=
  inferInstanceAs (Decidable (_ ∨ _))

theorem Outranks.asymm {a b : AttributedTrigger × Nat} (h : Outranks a b) : ¬ Outranks b a := by
  unfold Outranks at *
  omega

theorem outranks_of_zipIdxLE {a b : AttributedTrigger × Nat}
    (le : List.zipIdxLE AttributedTrigger.ranksBefore a b = true) (ne : a.2 ≠ b.2) :
    Outranks a b := by
  unfold List.zipIdxLE at le
  split_ifs at le with above below
  · rw [AttributedTrigger.ranksBefore_iff] at above below
    have := of_decide_eq_true le
    unfold Outranks
    omega
  · rw [AttributedTrigger.ranksBefore_iff] at above below
    unfold Outranks
    omega

/-- The entries of a history from the highest rank to the lowest. -/
def rankEntries (history : List AttributedTrigger) : List (AttributedTrigger × Nat) :=
  history.zipIdx.mergeSort (List.zipIdxLE AttributedTrigger.ranksBefore)

theorem map_fst_rankEntries (history : List AttributedTrigger) :
    (rankEntries history).map Prod.fst = rankTriggers history :=
  List.mergeSort_zipIdx

theorem rankEntries_perm (history : List AttributedTrigger) :
    (rankEntries history).Perm history.zipIdx :=
  List.mergeSort_perm _ _

theorem pairwise_rankEntries (history : List AttributedTrigger) :
    (rankEntries history).Pairwise Outranks := by
  have places : ((rankEntries history).map Prod.snd).Nodup :=
    ((rankEntries_perm history).map Prod.snd).symm.nodup (List.nodup_zipIdx_map_snd history)
  have sorted : (rankEntries history).Pairwise fun a b =>
      List.zipIdxLE AttributedTrigger.ranksBefore a b = true :=
    List.pairwise_mergeSort (List.zipIdxLE_trans AttributedTrigger.ranksBefore_trans)
      (List.zipIdxLE_total AttributedTrigger.ranksBefore_total) _
  exact sorted.imp₂ (fun _ _ => outranks_of_zipIdxLE) (List.pairwise_map.1 places)

/-- In a ranking, the entries that outrank one of them are those before it. -/
theorem filter_outranks {above rest : List (AttributedTrigger × Nat)}
    {entry : AttributedTrigger × Nat} (ranked : (above ++ entry :: rest).Pairwise Outranks) :
    (above ++ entry :: rest).filter (fun other => Outranks other entry) = above := by
  rw [List.pairwise_append, List.pairwise_cons] at ranked
  obtain ⟨-, ⟨below, -⟩, before⟩ := ranked
  have all : above.filter (fun other => Outranks other entry) = above :=
    List.filter_eq_self.2 fun other hother =>
      decide_eq_true (before other hother entry List.mem_cons_self)
  have none_below : (entry :: rest).filter (fun other => Outranks other entry) = [] := by
    rw [List.filter_eq_nil_iff]
    intro other hother outranks
    have outranks := of_decide_eq_true outranks
    rcases List.mem_cons.1 hother with rfl | later
    · exact outranks.asymm outranks
    · exact outranks.asymm (below other later)
  rw [List.filter_append, all, none_below, List.append_nil]

/-! ## Desired reports in rank order -/

namespace ReportSpec

variable {spec next : ReportSpec} {source : Source} {t : AttributedTrigger}
  {existing insert delete : List EventReport} {ctx : ReportContext}

/-- The reports that an entry of the history deserves: those for the buckets that its trigger lets
be reached once all the triggers that outrank it are counted. -/
def reportsOf (spec : ReportSpec) (source : Source) (ctx : ReportContext)
    (entry : AttributedTrigger × Nat) : List EventReport :=
  spec.reportsFor source ctx
    ((spec.history.zipIdx.filter fun other => Outranks other entry).map Prod.fst) entry.1

/-- It does not matter in which order the triggers above are listed. -/
theorem reportsFor_perm {above above' : List AttributedTrigger} (h : above.Perm above')
    (t : AttributedTrigger) :
    spec.reportsFor source ctx above t = spec.reportsFor source ctx above' t := by
  unfold reportsFor
  simp only [TriggerSpec.total_perm h, TriggerSpec.total_perm (h.append_right [t])]

/-- The reports for one trigger are for buckets of its trigger data, in ascending order. -/
theorem exists_firsts_reportsFor (spec : ReportSpec) (source : Source) (ctx : ReportContext)
    (above : List AttributedTrigger) (t : AttributedTrigger) :
    ∃ firsts : List UInt64, firsts.Pairwise (· < ·) ∧
      (spec.reportsFor source ctx above t).map EventReport.key =
        firsts.map fun first => (t.data, some first) := by
  unfold reportsFor
  split
  · exact ⟨[], List.Pairwise.nil, rfl⟩
  · next rules hr =>
    split
    · exact ⟨[], List.Pairwise.nil, rfl⟩
    · have valid := FlexibleConfig.triggerSpecFor?_valid spec.valid hr
      have ascending := rules.map_first_summaryBuckets spec.config.maxReports ▸
        TriggerSpec.thresholds_ascending valid spec.config.maxReports
      let reached := (rules.summaryBuckets spec.config.maxReports).filter fun bucket =>
        decide (rules.total source.eventTime t.data above < bucket.first.toNat ∧
          bucket.first.toNat ≤ rules.total source.eventTime t.data (above ++ [t]))
      have sub : (reached.map (·.first)).Sublist
          ((rules.summaryBuckets spec.config.maxReports).map (·.first)) :=
        List.filter_sublist.map _
      refine ⟨reached.map (·.first), ascending.sublist sub, ?_⟩
      rw [List.map_map, List.map_map]
      rfl

theorem desiredFrom_eq_flatMap (spec : ReportSpec) (source : Source) (ctx : ReportContext)
    (above rest : List (AttributedTrigger × Nat))
    (ranked : (above ++ rest).Pairwise Outranks) (all : (above ++ rest).Perm spec.history.zipIdx) :
    spec.desiredFrom source ctx (above.map Prod.fst) (rest.map Prod.fst) =
      rest.flatMap (spec.reportsOf source ctx) := by
  induction rest generalizing above with
  | nil => rfl
  | cons entry rest ih =>
    have first : spec.reportsFor source ctx (above.map Prod.fst) entry.1 =
        spec.reportsOf source ctx entry := by
      have prefixPerm := all.filter fun other => decide (Outranks other entry)
      rw [filter_outranks ranked] at prefixPerm
      exact reportsFor_perm (prefixPerm.map Prod.fst) entry.1
    have concat : above ++ entry :: rest = (above ++ [entry]) ++ rest := by simp
    rw [concat] at ranked all
    have later := ih (above ++ [entry]) ranked all
    rw [List.map_append, List.map_singleton] at later
    rw [List.map_cons, desiredFrom, List.flatMap_cons, first, later]

/-- The desired reports are those of the entries from the highest rank to the lowest. -/
theorem desired_eq_flatMap (spec : ReportSpec) (source : Source) (ctx : ReportContext) :
    spec.desired source ctx =
      (rankEntries spec.history).flatMap (spec.reportsOf source ctx) := by
  have all := desiredFrom_eq_flatMap spec source ctx [] (rankEntries spec.history)
    (pairwise_rankEntries spec.history) (rankEntries_perm spec.history)
  rwa [map_fst_rankEntries] at all

/-! ## Slots after a reconciliation -/

end ReportSpec

section

variable {maxReports : Nat} {desired existing insert delete : List EventReport} {now : Int}

/-- The slots that some reports fill, each as often as it is filled. -/
def slots (reports : List EventReport) : Multiset ((UInt64 × Option UInt64) × Int) :=
  (reports.map EventReport.slot : List _)

theorem slots_append (reports reports' : List EventReport) :
    slots (reports ++ reports') = slots reports + slots reports' := by
  unfold slots
  rw [List.map_append, Multiset.coe_add]

theorem slots_of_perm {reports reports' : List EventReport}
    (h : (reports.map EventReport.slot).Perm (reports'.map EventReport.slot)) :
    slots reports = slots reports' :=
  Multiset.coe_eq_coe.2 h

theorem mem_changeableReports_iff_pending {r : EventReport} :
    r ∈ changeableReports existing now ↔
      r ∈ existing ∧ r.status = .pending ∧ now ≤ r.reportTime := by
  rw [mem_changeableReports]
  unfold EventReport.isStanding EventReport.isLocked
  cases r.status <;> simp

/-- What is deleted gives its slots up and what is inserted fills its own: then the slots of the
locked reports and the wanted ones are filled, each as often as it is listed. -/
theorem slots_of_reconcile (h : reconcile maxReports desired existing now = (insert, delete)) :
    slots (existing.filter (·.isStanding)) - slots delete + slots insert =
      slots (lockedReports existing now) +
        slots (openReports maxReports desired (lockedReports existing now) now) := by
  obtain ⟨kept, split, fill, -, -⟩ := exists_kept_of_reconcile_eq h
  have standing : (existing.filter (·.isStanding)).Perm
      (lockedReports existing now ++ kept ++ delete) := by
    rw [List.append_assoc]
    exact (locked_append_changeable_perm existing now).symm.trans (split.append_left _)
  calc slots (existing.filter (·.isStanding)) - slots delete + slots insert
      = slots (lockedReports existing now ++ kept) + slots delete - slots delete +
          slots insert := by rw [slots_of_perm (standing.map _), slots_append]
    _ = slots (lockedReports existing now) + slots (kept ++ insert) := by
      rw [Multiset.add_sub_cancel_right, slots_append, slots_append, Multiset.add_assoc]
    _ = _ := by rw [slots_of_perm fill]

end

namespace ReportSpec

variable {spec next : ReportSpec} {source : Source} {t : AttributedTrigger}
  {existing insert delete : List EventReport} {ctx : ReportContext}

/-- When a trigger moves reports, the slots of the standing ones become those of the locked reports
and, as many as there is room for, of the reports deserved by the history in rank order that no
locked report covers and that are not overdue. Only pending reports that are not overdue are
deleted, and none that fills a slot to be filled again. -/
theorem reconciliation_exact
    (h : spec.credit source t existing ctx = .reports next insert delete) :
    next = spec.record t ∧
      ∃ ranked : List (AttributedTrigger × Nat),
        ranked.Perm next.history.zipIdx ∧ ranked.Pairwise Outranks ∧
          (∀ entry ∈ ranked, ∃ firsts : List UInt64, firsts.Pairwise (· < ·) ∧
            (next.reportsOf source ctx entry).map EventReport.key =
              firsts.map fun first => (entry.1.data, some first)) ∧
          next.desired source ctx = ranked.flatMap (next.reportsOf source ctx) ∧
          (let locked := lockedReports existing ctx.now
            let deserved := uncoveredReports (ranked.flatMap (next.reportsOf source ctx)) locked
              ctx.now
            slots (existing.filter (·.isStanding)) - slots delete + slots insert =
              slots locked + slots (deserved.take (next.maxReports - locked.length))) ∧
          delete <+~ existing ∧
          (∀ r ∈ delete, r.status = .pending ∧ ctx.now ≤ r.reportTime) ∧
            ∀ r ∈ insert, ∀ s ∈ delete, s.slot ≠ r.slot := by
  obtain ⟨rfl, -, eq⟩ := credit_eq_reports h
  refine ⟨rfl, rankEntries (spec.record t).history, rankEntries_perm _, pairwise_rankEntries _,
    fun entry _ => exists_firsts_reportsFor _ source ctx _ entry.1,
    desired_eq_flatMap _ source ctx, ?_, ?_, ?_, ?_⟩
  · rw [← desired_eq_flatMap]
    exact slots_of_reconcile eq
  · obtain ⟨kept, split, -⟩ := exists_kept_of_reconcile_eq eq
    have sub : delete <+~ changeableReports existing ctx.now :=
      (List.sublist_append_right kept delete).subperm.trans split.symm.subperm
    exact sub.trans List.filter_sublist.subperm
  · intro r hr
    exact (mem_changeableReports_iff_pending.1 (mem_of_mem_delete eq hr)).2
  · obtain ⟨-, -, -, -, apart⟩ := exists_kept_of_reconcile_eq eq
    exact apart

/-- The sample source with three reports to give, and a trigger with data 1 in its history. -/
def sampleOneTrigger : ReportSpec :=
  ⟨Sample.flexibleConfig 3, rfl, [Sample.attributed "trigger1" 1 1 1]⟩

/-- A report for the first bucket of a trigger data, due when the window of the rules ends. -/
def sampleSlot (id : String) (data : UInt64) (status : EventReportStatus) : EventReport :=
  { Sample.eventReport with
    id
    credited := Sample.attributed "trigger1" 1 data 1
    bucket := some ⟨1, 1⟩
    reportTime := Sample.source.eventTime + Time.days 2
    status }

/-- Two delivered reports, and two pending ones that fill one slot. -/
def sampleCrowded : List EventReport :=
  [sampleSlot "first" 1 .pending, sampleSlot "sent1" 3 .delivered, sampleSlot "sent2" 4 .delivered,
    sampleSlot "second" 1 .pending]

/-- The delivered reports leave room for one other, which goes to the trigger that ranks first; both
reports for the other trigger are deleted. -/
theorem reconciliation_exact_sample :
    ∃ next insert delete,
      sampleOneTrigger.credit Sample.source (Sample.attributed "trigger2" 2 2 5) sampleCrowded
          (Sample.onTime (Sample.attributed "trigger2" 2 2 5)) = .reports next insert delete ∧
        insert.map EventReport.key = [(2, some 1)] ∧
        delete.map EventReport.id = ["first", "second"] ∧
        (next.desired Sample.source (Sample.onTime (Sample.attributed "trigger2" 2 2 5))).map
          EventReport.key = [(2, some 1), (1, some 1)] ∧
        slots (sampleCrowded.filter (·.isStanding)) - slots delete + slots insert =
          {((3, some 1), Sample.source.eventTime + Time.days 2),
            ((4, some 1), Sample.source.eventTime + Time.days 2),
            ((2, some 1), Sample.source.eventTime + Time.days 2)} := by
  have rules : sampleOneTrigger.rulesFor Sample.source.eventTime
      (Sample.attributed "trigger2" 2 2 5) = .ok ⟨[1, 2], ⟨0, [Time.days 2]⟩, .count, []⟩ := by
    cbv
  have moved : sampleOneTrigger.credit Sample.source (Sample.attributed "trigger2" 2 2 5)
      sampleCrowded (Sample.onTime (Sample.attributed "trigger2" 2 2 5)) = .reports _ _ _ :=
    credit_of_crossed rules (by cbv)
  obtain ⟨-, ranked, -, -, -, desired, filled, -⟩ := reconciliation_exact moved
  rw [← desired] at filled
  exact ⟨_, _, _, moved, by cbv, by cbv, by cbv, filled.trans (by cbv)⟩

end ReportSpec

end AttributionReporting
