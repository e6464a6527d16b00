import AttributionReporting.Proofs.EventReport.Standard
import AttributionReporting.Proofs.Flexible.Ranking
import AttributionReporting.Proofs.StableSort
import AttributionReporting.Proofs.Store.Exchange
import AttributionReporting.Sample
import Mathlib

/-!
# A plain source keeps its best reports

A plain source is offered triggers one after another (`Offer`), and `Run` is what its reports may be
after some offers, none of them delivered. `Selected` splits the offers into those kept and those
given up: nothing given up ranks above what is kept, and nothing is given up while there is room.
So the source ends with the reports that sorting all the offers would put first (`run_keeps_best`),
although it sees each of them only once and decides at once. The store accepts the offers of
different triggers, and what it makes of them is a run (`exists_serveAll?`).
-/

open scoped List

namespace AttributionReporting

/-! ## The first of a sorted list -/

section

variable {α : Type} {le : α → α → Bool}

/-- As many elements as there is room for, none of which is worse than one left out, are the first
of all when sorted. -/
theorem perm_take_mergeSort (trans : ∀ a b c, le a b = true → le b c = true → le a c = true)
    (total : ∀ a b, (le a b || le b a) = true) {kept dropped all : List α} {k : Nat}
    (split : (kept ++ dropped).Perm all) (count : kept.length = min k all.length)
    (best : ∀ a ∈ kept, ∀ b ∈ dropped, le a b = true)
    (antisymm : ∀ a ∈ all, ∀ b ∈ all, le a b = true → le b a = true → a = b) :
    kept.Perm ((all.mergeSort le).take k) := by
  have sorted : (kept.mergeSort le ++ dropped.mergeSort le).Pairwise fun a b => le a b = true := by
    rw [List.pairwise_append]
    refine ⟨List.pairwise_mergeSort trans total kept, List.pairwise_mergeSort trans total dropped,
      fun a ha b hb => ?_⟩
    exact best a ((List.mergeSort_perm kept le).mem_iff.1 ha) b
      ((List.mergeSort_perm dropped le).mem_iff.1 hb)
  have whole : (kept.mergeSort le ++ dropped.mergeSort le).Perm all :=
    ((List.mergeSort_perm kept le).append (List.mergeSort_perm dropped le)).trans split
  have eq : kept.mergeSort le ++ dropped.mergeSort le = all.mergeSort le :=
    eq_mergeSort_of_perm trans total antisymm sorted whole
  have first : (all.mergeSort le).take k = kept.mergeSort le := by
    rw [List.take_eq_take_min, List.length_mergeSort, ← count, ← eq]
    exact List.take_left' (List.length_mergeSort kept)
  rw [first]
  exact (List.mergeSort_perm kept le).symm

end

/-! ## Offers -/

/-- A trigger, with the datum of it that is to be reported. -/
structure Offer where
  trigger : Trigger
  datum : EventTriggerDatum

namespace Offer

def credited (o : Offer) : AttributedTrigger := o.trigger.attributedWith o.datum

def priority (o : Offer) : Int := o.datum.priority

/-- The report that an offer asks for. -/
def report (source : Source) (reportTime : Int) (triggerRate : Float) (o : Offer) : EventReport :=
  EventReport.ofAttributed source o.credited reportTime triggerRate o.trigger.debugKey

/-- Whether `a` ranks no lower than `b`. -/
def ranksBefore (a b : Offer) : Bool := a.credited.ranksBefore b.credited

theorem ranksBefore_iff {a b : Offer} :
    a.ranksBefore b = true ↔ b.priority < a.priority ∨
      (a.priority = b.priority ∧ a.trigger.time ≤ b.trigger.time) :=
  decide_eq_true_iff

/-- What yields first ranks last. -/
theorem ranksBefore_of_not_yieldsBefore {source : Source} {reportTime : Int} {triggerRate : Float}
    {a b : Offer}
    (h : ¬ (a.report source reportTime triggerRate).yieldsBefore
      (b.report source reportTime triggerRate) = true) : a.ranksBefore b = true := by
  unfold EventReport.yieldsBefore at h
  rw [decide_eq_true_iff] at h
  change ¬ (a.priority < b.priority ∨ (a.priority = b.priority ∧ b.trigger.time < a.trigger.time))
    at h
  rw [ranksBefore_iff]
  omega

end Offer

/-! ## A run of offers -/

/-- A plain source between two offers: its dedup keys and its reports. -/
structure PlainState where
  keys : List UInt64
  reports : List EventReport

namespace PlainState

variable {source : Source} {limits : Limits} {triggerRate : Float} {s s' : PlainState} {o : Offer}
  {offers : List Offer} {type : DestinationType} {reportTime : Int}

/-- The decision on an offer. -/
def decideOn (source : Source) (limits : Limits) (triggerRate : Float) (s : PlainState)
    (o : Offer) : EventReportDecision :=
  decideStandardReport { source with eventDedupKeys := s.keys } o.trigger o.datum s.reports limits
    triggerRate

/-- What an offer leads to. A report that is replaced is taken out of the list wherever it stands,
and the dedup key of what is reported joins the others. -/
inductive Takes (source : Source) (limits : Limits) (triggerRate : Float) (s : PlainState)
    (o : Offer) : PlainState → Prop
  | drop {reason : EventDropReason} (h : s.decideOn source limits triggerRate o = .drop reason) :
    Takes source limits triggerRate s o s
  | insert {report : EventReport}
    (h : s.decideOn source limits triggerRate o = .insert report none) :
    Takes source limits triggerRate s o
      ⟨s.keys ++ o.datum.dedupKey.toList, s.reports ++ [report]⟩
  | replace {report lowest : EventReport} {front back : List EventReport}
    (h : s.decideOn source limits triggerRate o = .insert report (some lowest))
    (split : s.reports = front ++ lowest :: back) :
    Takes source limits triggerRate s o
      ⟨s.keys ++ o.datum.dedupKey.toList, front ++ back ++ [report]⟩

/-- What a plain source without reports may be after some offers. -/
inductive Run (source : Source) (limits : Limits) (triggerRate : Float) :
    List Offer → PlainState → Prop
  | nil : Run source limits triggerRate [] ⟨source.eventDedupKeys, []⟩
  | concat {offers : List Offer} {s : PlainState} {o : Offer} {s' : PlainState}
    (run : Run source limits triggerRate offers s)
    (takes : Takes source limits triggerRate s o s') :
    Run source limits triggerRate (offers ++ [o]) s'

theorem exists_takes (source : Source) (limits : Limits) (triggerRate : Float) (s : PlainState)
    (o : Offer) : ∃ s', Takes source limits triggerRate s o s' := by
  rcases h : s.decideOn source limits triggerRate o with ⟨report, replaces⟩ | reason
  · obtain ⟨-, -, -, -, ⟨-, rfl⟩ | ⟨lowest, mem, rfl, -⟩⟩ := decideStandardReport_eq_insert h
    · exact ⟨_, .insert h⟩
    · obtain ⟨front, back, split⟩ := List.append_of_mem mem
      exact ⟨_, .replace h split⟩
  · exact ⟨_, .drop h⟩

/-- Every sequence of offers can be made. -/
theorem exists_run (source : Source) (limits : Limits) (triggerRate : Float)
    (offers : List Offer) : ∃ s, Run source limits triggerRate offers s := by
  induction offers using List.reverseRecOn with
  | nil => exact ⟨_, .nil⟩
  | append_singleton offers o ih =>
    obtain ⟨s, run⟩ := ih
    obtain ⟨s', takes⟩ := exists_takes source limits triggerRate s o
    exact ⟨s', run.concat takes⟩

/-! ## Offers in the store -/

/-- What the store makes of an offer, unless it refuses the report. -/
def serve? (source : Source) (limits : Limits) (triggerRate : Float) (s : PlainState)
    (o : Offer) : Option PlainState :=
  match s.decideOn source limits triggerRate o with
  | .drop _ => some s
  | .insert report replaces =>
    (exchangeReports? [report] replaces.toList s.reports).map fun after =>
      ⟨s.keys ++ o.datum.dedupKey.toList, after⟩

/-- What the store makes of the offers to a source without reports. -/
def serveAll? (source : Source) (limits : Limits) (triggerRate : Float) (offers : List Offer) :
    Option PlainState :=
  offers.foldlM (serve? source limits triggerRate) ⟨source.eventDedupKeys, []⟩

/-- What the store makes of a decision, when its reports have ids of their own. -/
theorem takes_of_exchangeReports? {report : EventReport} {replaces : Option EventReport}
    {after : List EventReport} (ids : (s.reports.map EventReport.id).Nodup)
    (h : s.decideOn source limits triggerRate o = .insert report replaces)
    (exchanged : exchangeReports? [report] replaces.toList s.reports = some after) :
    Takes source limits triggerRate s o ⟨s.keys ++ o.datum.dedupKey.toList, after⟩ := by
  obtain ⟨-, -, -, -, ⟨-, rfl⟩ | ⟨lowest, mem, rfl, -⟩⟩ := decideStandardReport_eq_insert h
  · obtain ⟨rfl, -⟩ := (@exchangeReports?_eq_some_iff [report] [] _ _ ids List.nodup_nil
      (by simp)).1 exchanged
    rw [remainingReports_nil]
    exact .insert h
  · obtain ⟨rfl, -⟩ := (@exchangeReports?_eq_some_iff [report] [lowest] _ _ ids
      (List.nodup_singleton _) (by simpa using ⟨lowest, mem, rfl⟩)).1 exchanged
    obtain ⟨front, back, split⟩ := List.append_of_mem mem
    rw [split] at ids ⊢
    rw [remainingReports_singleton ids]
    exact .replace h split

/-- The report that is inserted has the id of its source and its trigger, and what it replaces is
stored. -/
theorem of_decideOn_eq_insert {report : EventReport} {replaces : Option EventReport}
    (h : s.decideOn source limits triggerRate o = .insert report replaces) :
    report.id = source.id ++ ":" ++ o.trigger.id ∧
      (replaces.toList.map EventReport.id).Nodup ∧
        ∀ r ∈ replaces.toList, r.id ∈ s.reports.map EventReport.id := by
  obtain ⟨reportTime, -, -, rfl, ⟨-, rfl⟩ | ⟨lowest, mem, rfl, -⟩⟩ :=
    decideStandardReport_eq_insert h
  · exact ⟨rfl, List.nodup_nil, by simp⟩
  · refine ⟨rfl, List.nodup_singleton _, fun r hr => ?_⟩
    obtain rfl := List.mem_singleton.1 hr
    exact List.mem_map_of_mem mem

/-- The store accepts an offer whose report has a new id. -/
theorem exists_serve? (limits : Limits) (triggerRate : Float)
    (ids : (s.reports.map EventReport.id).Nodup)
    (new : source.id ++ ":" ++ o.trigger.id ∉ s.reports.map EventReport.id) :
    ∃ s', s.serve? source limits triggerRate o = some s' ∧
      Takes source limits triggerRate s o s' ∧ (s'.reports.map EventReport.id).Nodup ∧
        ∀ id ∈ s'.reports.map EventReport.id,
          id ∈ s.reports.map EventReport.id ∨ id = source.id ++ ":" ++ o.trigger.id := by
  unfold serve?
  rcases h : s.decideOn source limits triggerRate o with ⟨report, replaces⟩ | reason
  · obtain ⟨own, one, stored⟩ := of_decideOn_eq_insert h
    have left : ∀ id ∈ (remainingReports replaces.toList s.reports).map EventReport.id,
        id ∈ s.reports.map EventReport.id :=
      (List.filter_sublist.map EventReport.id).subset
    have distinct : ((remainingReports replaces.toList s.reports ++ [report]).map
        EventReport.id).Nodup := by
      rw [List.map_append, List.nodup_append]
      refine ⟨ids.sublist (List.filter_sublist.map _), List.nodup_singleton _, ?_⟩
      rintro id old _ last rfl
      rw [List.map_singleton, List.mem_singleton, own] at last
      exact new (last ▸ left id old)
    have exchanged := (exchangeReports?_eq_some_iff ids one stored).2 ⟨rfl, distinct⟩
    refine ⟨_, congrArg (Option.map _) exchanged, takes_of_exchangeReports? ids h exchanged,
      distinct, fun id mem => ?_⟩
    rw [List.map_append, List.mem_append, List.map_singleton, List.mem_singleton, own] at mem
    exact mem.imp_left (left id)
  · exact ⟨s, rfl, .drop h, ids, fun _ => .inl⟩

/-- What the store makes of offers of different triggers is a run. -/
theorem exists_serveAll? (source : Source) (limits : Limits) (triggerRate : Float)
    {offers : List Offer} (distinct : (offers.map (·.trigger.id)).Nodup) :
    ∃ s, serveAll? source limits triggerRate offers = some s ∧
      Run source limits triggerRate offers s ∧ (s.reports.map EventReport.id).Nodup ∧
        ∀ id ∈ s.reports.map EventReport.id, ∃ o ∈ offers,
          id = source.id ++ ":" ++ o.trigger.id := by
  induction offers using List.reverseRecOn with
  | nil => exact ⟨_, rfl, .nil, List.nodup_nil, by simp⟩
  | append_singleton offers o ih =>
    rw [List.map_append, List.nodup_append] at distinct
    obtain ⟨s, served, run, ids, named⟩ := ih distinct.1
    have new : source.id ++ ":" ++ o.trigger.id ∉ s.reports.map EventReport.id := by
      intro mem
      obtain ⟨other, offered, same⟩ := named _ mem
      exact distinct.2.2 _ (List.mem_map_of_mem offered) o.trigger.id
        (List.mem_singleton_self _) ((String.append_right_inj _).1 same).symm
    obtain ⟨s', served', takes, ids', named'⟩ := exists_serve? limits triggerRate ids new
    refine ⟨s', ?_, run.concat takes, ids', fun id mem => ?_⟩
    · unfold serveAll? at served ⊢
      rw [List.foldlM_append, served]
      simpa using served'
    · rcases named' id mem with old | rfl
      · obtain ⟨other, offered, eq⟩ := named id old
        exact ⟨other, List.mem_append_left _ offered, eq⟩
      · exact ⟨o, List.mem_append_right _ (List.mem_singleton_self o), rfl⟩

/-! ## What is kept -/

/-- Whether an offer is for a type of destination, and its report due at a time. -/
def Due (source : Source) (limits : Limits) (type : DestinationType) (reportTime : Int)
    (o : Offer) : Prop :=
  o.trigger.destinationType = type ∧
    standardReportTime source o.trigger.time type limits = some reportTime

/-- While all reports are due at the same time and none is delivered, a new report is inserted if
there is room, and else takes the place of the one that yields first if that has a lower
priority. -/
theorem decideOn_eq {kept : List Offer} (due : Due source limits type reportTime o)
    (fresh : ∀ key, o.datum.dedupKey = some key → key ∉ s.keys)
    (reports : s.reports = kept.map (Offer.report source reportTime triggerRate)) :
    s.decideOn source limits triggerRate o =
      if kept.length < (limits.maxEventReports source type).toNat then
        .insert (o.report source reportTime triggerRate) none
      else
        match EventReport.firstToYield? s.reports with
        | none => .drop .reportLimitReached
        | some lowest =>
          if lowest.credited.priority < o.priority then
            .insert (o.report source reportTime triggerRate) (some lowest)
          else .drop .lowerPriority := by
  obtain ⟨rfl, time⟩ := due
  have time : standardReportTime { source with eventDedupKeys := s.keys } o.trigger.time
    o.trigger.destinationType limits = some reportTime := time
  have fresh : o.datum.dedupKey.any s.keys.contains = false := by
    cases has : o.datum.dedupKey with
    | none => rfl
    | some key => simpa using fresh key has
  have pending : ∀ r ∈ s.reports, r.status = .pending ∧ r.reportTime = reportTime := by
    rw [reports]
    intro r hr
    obtain ⟨a, -, rfl⟩ := List.mem_map.1 hr
    exact ⟨rfl, rfl⟩
  have standing : s.reports.countP (·.isStanding) = kept.length := by
    rw [List.countP_eq_length.2 fun r hr => by simp [EventReport.isStanding, pending r hr], reports,
      List.length_map]
  have rivals : s.reports.filter (fun r => r.status == .pending && r.reportTime == reportTime) =
      s.reports :=
    List.filter_eq_self.2 fun r hr => by simp [pending r hr]
  unfold decideOn decideStandardReport
  rw [time]
  dsimp only
  rw [fresh, if_neg Bool.false_ne_true, standing, rivals]
  rfl

/-- What an offer does to a source that keeps the reports of some offers: its report is added while
there is room; when there is none it takes the place of the one that ranks last, if that has a lower
priority. -/
theorem takes_cases {kept : List Offer} (due : Due source limits type reportTime o)
    (fresh : ∀ key, o.datum.dedupKey = some key → key ∉ s.keys)
    (reports : s.reports = kept.map (Offer.report source reportTime triggerRate))
    (takes : Takes source limits triggerRate s o s') :
    (kept.length < (limits.maxEventReports source type).toNat ∧
      s' = ⟨s.keys ++ o.datum.dedupKey.toList,
        (kept ++ [o]).map (Offer.report source reportTime triggerRate)⟩) ∨
      ((limits.maxEventReports source type).toNat ≤ kept.length ∧ s' = s ∧
        ∀ a ∈ kept, o.priority ≤ a.priority) ∨
      ((limits.maxEventReports source type).toNat ≤ kept.length ∧ ∃ front given back,
        kept = front ++ given :: back ∧
          s' = ⟨s.keys ++ o.datum.dedupKey.toList,
            (front ++ back ++ [o]).map (Offer.report source reportTime triggerRate)⟩ ∧
          given.priority < o.priority ∧ ∀ a ∈ front ++ back, a.ranksBefore given = true) := by
  have decided := decideOn_eq due fresh reports
  cases takes with
  | drop h =>
    rw [h] at decided
    split_ifs at decided with full
    refine .inr (.inl ⟨not_lt.1 full, rfl, fun a ha => ?_⟩)
    have mem : a.report source reportTime triggerRate ∈ s.reports := by
      rw [reports]
      exact List.mem_map_of_mem ha
    split at decided
    · next empty =>
      rw [EventReport.firstToYield?_eq_none_iff.1 empty] at mem
      cases mem
    · next lowest found =>
      split_ifs at decided with lower
      have least := EventReport.not_yieldsBefore_of_firstToYield? found _ mem
      unfold EventReport.yieldsBefore at least
      rw [decide_eq_true_iff] at least
      change ¬ (a.priority < lowest.credited.priority ∨ _) at least
      omega
  | insert h =>
    rw [h] at decided
    split_ifs at decided with room
    · cases decided
      refine .inl ⟨room, ?_⟩
      rw [List.map_append, ← reports]
      rfl
    · split at decided
      · cases decided
      · split_ifs at decided
        cases decided
  | @replace report lowest front back h split =>
    rw [h] at decided
    split_ifs at decided with full
    · cases decided
    · split at decided
      · cases decided
      · next lowest' found =>
        split_ifs at decided with lower
        cases decided
        have least := EventReport.not_yieldsBefore_of_firstToYield? found
        rw [reports] at split least
        obtain ⟨front', rest, rfl, rfl, cons⟩ := List.map_eq_append_iff.1 split
        obtain ⟨given, back', rfl, rfl, rfl⟩ := List.map_eq_cons_iff.1 cons
        refine .inr (.inr ⟨not_lt.1 full, front', given, back', rfl, ?_, lower, fun a ha => ?_⟩)
        · rw [List.map_append, List.map_append]
          rfl
        · have mem : a ∈ front' ++ given :: back' := by
            rw [List.mem_append] at ha ⊢
            exact ha.imp_right (List.mem_cons_of_mem given)
          exact Offer.ranksBefore_of_not_yieldsBefore (least _ (List.mem_map_of_mem mem))

/-! ## The selection -/

/-- The offers kept and those given up, where `le` compares what is kept with what is given up. -/
structure Selected (limits : Limits) (source : Source) (type : DestinationType)
    (le : Offer → Offer → Prop) (offers kept dropped : List Offer) : Prop where
  split : (kept ++ dropped).Perm offers
  count : kept.length = min (limits.maxEventReports source type).toNat offers.length
  best : ∀ a ∈ kept, ∀ b ∈ dropped, le a b

section

variable {le : Offer → Offer → Prop} {kept dropped front back : List Offer} {given : Offer}

theorem Selected.length (selected : Selected limits source type le offers kept dropped) :
    kept.length + dropped.length = offers.length := by
  rw [← List.length_append]
  exact selected.split.length_eq

theorem Selected.insert (selected : Selected limits source type le offers kept dropped)
    (room : kept.length < (limits.maxEventReports source type).toNat) (o : Offer) :
    Selected limits source type le (offers ++ [o]) (kept ++ [o]) [] := by
  have length := selected.length
  have count := selected.count
  obtain rfl : dropped = [] := List.eq_nil_of_length_eq_zero (by omega)
  have split := selected.split
  rw [List.append_nil] at split
  refine ⟨?_, ?_, fun _ _ _ hb => (List.not_mem_nil hb).elim⟩
  · rw [List.append_nil]
    exact split.append_right [o]
  · rw [List.length_append, List.length_append, List.length_singleton]
    omega

theorem Selected.drop (selected : Selected limits source type le offers kept dropped)
    (full : (limits.maxEventReports source type).toNat ≤ kept.length)
    (worst : ∀ a ∈ kept, le a o) :
    Selected limits source type le (offers ++ [o]) kept (o :: dropped) := by
  have count := selected.count
  refine ⟨?_, ?_, fun a ha => List.forall_mem_cons.2 ⟨worst a ha, selected.best a ha⟩⟩
  · exact List.perm_middle.trans ((selected.split.cons o).trans
      (List.perm_append_singleton o offers).symm)
  · rw [List.length_append, List.length_singleton]
    omega

theorem Selected.replace
    (selected : Selected limits source type le offers (front ++ given :: back) dropped)
    (full : (limits.maxEventReports source type).toNat ≤ (front ++ given :: back).length)
    (last : ∀ a ∈ front ++ back, le a given) (better : ∀ b ∈ given :: dropped, le o b) :
    Selected limits source type le (offers ++ [o]) (front ++ back ++ [o]) (given :: dropped) := by
  have count := selected.count
  refine ⟨?_, ?_, fun a ha => ?_⟩
  · calc front ++ back ++ [o] ++ given :: dropped
        ~ given :: (front ++ back ++ [o] ++ dropped) := List.perm_middle
      _ ~ given :: (front ++ back ++ dropped ++ [o]) := by
        rw [List.append_assoc _ [o], List.append_assoc _ dropped]
        exact (List.perm_append_comm.append_left _).cons given
      _ = given :: (front ++ back) ++ dropped ++ [o] := by simp
      _ ~ front ++ given :: back ++ dropped ++ [o] :=
        (List.perm_middle.symm.append_right dropped).append_right [o]
      _ ~ offers ++ [o] := selected.split.append_right [o]
  · simp only [List.length_append, List.length_cons, List.length_nil] at count full ⊢
    omega
  · rcases List.mem_append.1 ha with old | new
    · refine List.forall_mem_cons.2 ⟨last a old, selected.best a ?_⟩
      rw [List.mem_append] at old ⊢
      exact old.imp_right (List.mem_cons_of_mem given)
    · rw [List.mem_singleton.1 new]
      exact better

end

section

variable {le : Offer → Offer → Prop} (coarse : ∀ a b : Offer, a.ranksBefore b = true → le a b)
  (fine : ∀ a b : Offer, le a b → b.priority ≤ a.priority)

include coarse fine

/-- One offer more. Of offers with the same priority the later one is given up, so `le` must hold
between an offer and a later one that does not have a higher priority. -/
theorem Selected.takes {kept dropped : List Offer}
    (selected : Selected limits source type le offers kept dropped)
    (due : Due source limits type reportTime o)
    (fresh : ∀ key, o.datum.dedupKey = some key → key ∉ s.keys)
    (reports : s.reports = kept.map (Offer.report source reportTime triggerRate))
    (late : ∀ a ∈ offers, o.priority ≤ a.priority → le a o)
    (takes : Takes source limits triggerRate s o s') :
    ∃ kept' dropped', Selected limits source type le (offers ++ [o]) kept' dropped' ∧
      s'.reports = kept'.map (Offer.report source reportTime triggerRate) := by
  rcases takes_cases due fresh reports takes with ⟨room, rfl⟩ | ⟨full, rfl, above⟩ |
    ⟨full, front, given, back, rfl, rfl, lower, last⟩
  · exact ⟨_, _, selected.insert room o, rfl⟩
  · refine ⟨_, _, selected.drop full fun a ha => late a ?_ (above a ha), reports⟩
    exact selected.split.subset (List.mem_append_left dropped ha)
  · refine ⟨_, _, selected.replace full (fun a ha => coarse a given (last a ha)) fun b hb => ?_,
      rfl⟩
    apply coarse
    rw [Offer.ranksBefore_iff]
    rcases List.mem_cons.1 hb with rfl | old
    · exact .inl lower
    · have := fine given b (selected.best given (by simp) b old)
      omega

omit coarse fine in
/-- The dedup keys of a run are those of the source and of its offers. -/
theorem Run.mem_keys (run : Run source limits triggerRate offers s) {key : UInt64}
    (h : key ∈ s.keys) :
    key ∈ source.eventDedupKeys ∨ key ∈ offers.filterMap (·.datum.dedupKey) := by
  induction run with
  | nil => exact .inl h
  | @concat offers s o s' _ takes ih =>
    have before : key ∈ s.keys ∨ o.datum.dedupKey = some key := by
      cases takes with
      | drop => exact .inl h
      | insert => exact (List.mem_append.1 h).imp_right Option.mem_toList.1
      | replace => exact (List.mem_append.1 h).imp_right Option.mem_toList.1
    rw [List.filterMap_append, List.mem_append]
    rcases before with old | new
    · exact (ih old).imp_right .inl
    · exact .inr (.inr (List.mem_filterMap.2 ⟨o, List.mem_singleton_self o, new⟩))

/-- After any offers the reports are those of a selection. -/
theorem Run.exists_selected (run : Run source limits triggerRate offers s)
    (due : ∀ o ∈ offers, Due source limits type reportTime o)
    (fresh : ∀ o ∈ offers, ∀ key, o.datum.dedupKey = some key → key ∉ source.eventDedupKeys)
    (distinct : (offers.filterMap (·.datum.dedupKey)).Nodup)
    (late : offers.Pairwise fun a b => b.priority ≤ a.priority → le a b) :
    ∃ kept dropped, Selected limits source type le offers kept dropped ∧
      s.reports = kept.map (Offer.report source reportTime triggerRate) := by
  induction run with
  | nil => exact ⟨[], [], ⟨.refl _, by simp, by simp⟩, rfl⟩
  | @concat offers s o s' before takes ih =>
    rw [List.forall_mem_append, List.forall_mem_singleton] at due fresh
    rw [List.pairwise_append] at late
    rw [List.filterMap_append, List.nodup_append] at distinct
    obtain ⟨kept, dropped, selected, reports⟩ := ih due.1 fresh.1 distinct.1 late.1
    refine selected.takes coarse fine due.2 (fun key has mem => ?_) reports
      (fun a ha => late.2.2 a ha o (List.mem_singleton_self o)) takes
    rcases before.mem_keys mem with old | new
    · exact fresh.2 key has old
    · have mine : key ∈ [o].filterMap (·.datum.dedupKey) :=
        List.mem_filterMap.2 ⟨o, List.mem_singleton_self o, has⟩
      exact distinct.2.2 key new key mine rfl

end

/-! ## The best reports -/

/-- A source is offered triggers that are due at one time, with dedup keys of their own. However
they come, it ends with as many of their reports as there is room for, and the priorities of these
are the highest. When the triggers come in the order of their times, the reports are those of the
triggers that rank first. When they are different triggers, the store carries all of this out. -/
theorem run_keeps_best (source : Source) (limits : Limits) (triggerRate : Float)
    (type : DestinationType) (reportTime : Int) (offers : List Offer)
    (due : ∀ o ∈ offers, Due source limits type reportTime o)
    (fresh : ∀ o ∈ offers, ∀ key, o.datum.dedupKey = some key → key ∉ source.eventDedupKeys)
    (distinct : (offers.filterMap (·.datum.dedupKey)).Nodup) :
    (∃ s, Run source limits triggerRate offers s) ∧
      ((offers.map (·.trigger.id)).Nodup →
        ∃ s, serveAll? source limits triggerRate offers = some s ∧
          Run source limits triggerRate offers s) ∧
      ∀ s, Run source limits triggerRate offers s →
        let room := (limits.maxEventReports source type).toNat
        s.reports.length = min room offers.length ∧
          (∃ kept, kept <+~ offers ∧
            s.reports = kept.map (Offer.report source reportTime triggerRate)) ∧
          (s.reports.map (·.credited.priority)).Perm
            (((offers.map Offer.priority).mergeSort fun a b => decide (b ≤ a)).take room) ∧
          ((offers.Pairwise fun a b => a.trigger.time < b.trigger.time) →
            s.reports.Perm (((offers.mergeSort Offer.ranksBefore).take room).map
              (Offer.report source reportTime triggerRate))) := by
  refine ⟨exists_run source limits triggerRate offers, fun different => ?_, fun s run => ?_⟩
  · obtain ⟨s, served, run, -⟩ := exists_serveAll? source limits triggerRate different
    exact ⟨s, served, run⟩
  have coarse : ∀ a b : Offer, a.ranksBefore b = true → b.priority ≤ a.priority := by
    intro a b before
    rw [Offer.ranksBefore_iff] at before
    omega
  obtain ⟨kept, dropped, selected, reports⟩ := run.exists_selected coarse (fun _ _ le => le) due
    fresh distinct (List.pairwise_of_forall fun _ _ le => le)
  refine ⟨?_, ⟨kept, ?_, reports⟩, ?_, fun inOrder => ?_⟩
  · rw [reports, List.length_map]
    exact selected.count
  · exact (List.sublist_append_left kept dropped).subperm.trans selected.split.subperm
  · have priorities : s.reports.map (·.credited.priority) = kept.map Offer.priority := by
      rw [reports, List.map_map]
      rfl
    rw [priorities]
    have split : (kept.map Offer.priority ++ dropped.map Offer.priority).Perm
        (offers.map Offer.priority) := by
      rw [← List.map_append]
      exact selected.split.map _
    refine perm_take_mergeSort ?_ ?_ split ?_ ?_ ?_
    · simp only [decide_eq_true_eq]
      omega
    · simp only [Bool.or_eq_true, decide_eq_true_eq]
      omega
    · rw [List.length_map, List.length_map]
      exact selected.count
    · simp only [List.forall_mem_map, decide_eq_true_eq]
      exact selected.best
    · simp only [decide_eq_true_eq]
      omega
  · have late : offers.Pairwise fun a b =>
        b.priority ≤ a.priority → a.ranksBefore b = true := by
      refine inOrder.imp fun {a b} earlier notHigher => ?_
      rw [Offer.ranksBefore_iff]
      omega
    obtain ⟨kept, dropped, selected, reports⟩ := run.exists_selected (fun _ _ before => before)
      coarse due fresh distinct late
    rw [reports]
    refine (perm_take_mergeSort (fun a b c => AttributedTrigger.ranksBefore_trans a.credited _ _)
      (fun a b => AttributedTrigger.ranksBefore_total a.credited _) selected.split selected.count
      selected.best fun a ha b hb before after => ?_).map _
    have times : (offers.map (·.trigger.time)).Nodup :=
      List.pairwise_map.2 (inOrder.imp fun lt => Int.ne_of_lt lt)
    rw [Offer.ranksBefore_iff] at before after
    exact List.inj_on_of_nodup_map times ha hb (by omega)

/-- A trigger that comes some hours after the sample source. -/
def sampleOffer (id : String) (hours priority : Int) (dedupKey : Option UInt64) : Offer where
  trigger := { Sample.trigger with id, time := Sample.source.eventTime + Time.hours hours }
  datum := { data := 1, priority, dedupKey }

/-- A navigation source may have three reports. -/
def sampleNavigation : Source := { Sample.source with type := .navigation }

def sampleOffers : List Offer :=
  [sampleOffer "trigger1" 1 2 none, sampleOffer "trigger2" 2 5 (some 7),
    sampleOffer "trigger3" 3 2 (some 8), sampleOffer "trigger4" 4 2 none,
    sampleOffer "trigger5" 5 9 none]

/-- Of three triggers with the lowest priority the first one keeps its report. -/
theorem run_keeps_best_sample :
    ∃ s, serveAll? sampleNavigation .default 0 sampleOffers = some s ∧
      Run sampleNavigation .default 0 sampleOffers s ∧
      (s.reports.map EventReport.id).Perm
        ["source1:trigger5", "source1:trigger2", "source1:trigger1"] := by
  have due : ∀ o ∈ sampleOffers, Due sampleNavigation .default .app
      (Sample.source.eventTime + Time.days 2 + Time.hours 1) o := by
    simp only [sampleOffers, List.forall_mem_cons, List.not_mem_nil, false_implies, implies_true,
      and_true]
    refine ⟨⟨rfl, ?_⟩, ⟨rfl, ?_⟩, ⟨rfl, ?_⟩, ⟨rfl, ?_⟩, rfl, ?_⟩ <;> cbv
  have inOrder : sampleOffers.Pairwise fun a b => a.trigger.time < b.trigger.time := by decide
  obtain ⟨-, stored, best⟩ := run_keeps_best sampleNavigation .default 0 .app _ sampleOffers due
    (fun o _ key _ => List.not_mem_nil) (by decide)
  obtain ⟨s, served, run⟩ := stored (by decide)
  have perm := (((best s run).2.2.2 inOrder).map EventReport.id)
  exact ⟨s, served, run, perm.trans (.of_eq (by cbv))⟩

end PlainState

end AttributionReporting
