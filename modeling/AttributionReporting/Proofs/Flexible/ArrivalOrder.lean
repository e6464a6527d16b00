import AttributionReporting.Proofs.Flexible.Ranking
import AttributionReporting.Proofs.Flexible.Run
import AttributionReporting.Proofs.StableSort
import Mathlib

/-!
# The order in which triggers arrive

The reports that a history deserves are those of its credits, and these depend on the history only
through its triggers in rank order. When no two triggers share both priority and time there is one
such order, whatever order they arrived in (`rankTriggers_eq_of_perm`), and so the credits are the
same ones (`credits_eq_of_perm`). What is left of the order of arrival is which trigger came last,
and this decides nothing but the debug key and whether a debug report goes along
(`EventReport.FollowsLatest`).
-/

namespace AttributionReporting

/-! ## Triggers in rank order -/

namespace AttributedTrigger

/-- Whether two triggers share both priority and time, so that nothing but their arrival ranks
them. -/
def Tied (a b : AttributedTrigger) : Prop := a.priority = b.priority ∧ a.time = b.time

variable {a b : AttributedTrigger}

instance : Decidable (a.Tied b) := inferInstanceAs (Decidable (_ ∧ _))

theorem Tied.symm (h : a.Tied b) : b.Tied a := ⟨h.1.symm, h.2.symm⟩

instance : Std.Symm fun a b : AttributedTrigger => ¬a.Tied b := ⟨fun _ _ => mt Tied.symm⟩

theorem tied_of_ranksBefore (hab : a.ranksBefore b = true) (hba : b.ranksBefore a = true) :
    a.Tied b := by
  rw [ranksBefore_iff] at hab hba
  unfold Tied
  omega

end AttributedTrigger

section

variable {triggers triggers' : List AttributedTrigger}

/-- Triggers of which no two are tied are in strict order when ranked. -/
theorem pairwise_rankTriggers (distinct : triggers.Pairwise fun a b => ¬a.Tied b) :
    (rankTriggers triggers).Pairwise fun a b =>
      b.priority < a.priority ∨ (a.priority = b.priority ∧ a.time < b.time) := by
  have sorted : (rankTriggers triggers).Pairwise fun a b => a.ranksBefore b = true :=
    List.pairwise_mergeSort AttributedTrigger.ranksBefore_trans
      AttributedTrigger.ranksBefore_total triggers
  have apart := ((rankTriggers_perm triggers).pairwise_iff (mt AttributedTrigger.Tied.symm)).2
    distinct
  refine sorted.imp₂ (fun a b le apart => ?_) apart
  rw [AttributedTrigger.ranksBefore_iff] at le
  unfold AttributedTrigger.Tied at apart
  omega

/-- There is one way to rank them, whatever order they are listed in. -/
theorem rankTriggers_eq_of_perm (distinct : triggers.Pairwise fun a b => ¬a.Tied b)
    (perm : triggers'.Perm triggers) : rankTriggers triggers' = rankTriggers triggers := by
  refine mergeSort_eq_of_perm AttributedTrigger.ranksBefore_trans
    AttributedTrigger.ranksBefore_total (fun a ha b hb hab hba => ?_) perm
  by_contra other
  exact distinct.forall ha hb other (AttributedTrigger.tied_of_ranksBefore hab hba)

end

/-! ## What the last trigger decides -/

namespace EventReport

/-- The report without its debug key and what that decides. -/
def withoutDebug (r : EventReport) : EventReport :=
  { r with debugStatus := .none, triggerDebugKey := none }

/-- Whether a report has the debug key as it should when `latest` is the last trigger to arrive: a
report that credits this trigger has the key, and a debug report goes along when the source has one
too. -/
structure FollowsLatest (source : Source) (ctx : ReportContext) (latest : AttributedTrigger)
    (r : EventReport) : Prop where
  triggerDebugKey : r.triggerDebugKey =
    if r.credited.triggerId = latest.triggerId then ctx.triggerDebugKey else none
  debugStatus : r.debugStatus =
    if source.debugKey.isSome ∧ r.triggerDebugKey.isSome then .pending else .none

end EventReport

namespace Credit

variable {spec : ReportSpec} {source : Source} {ctx : ReportContext}

/-- The history has no part in the report of a credit but for the debug key. -/
theorem withoutDebug_report (spec spec' : ReportSpec) (c : Credit) :
    (c.report spec source ctx).withoutDebug = (c.report spec' source ctx).withoutDebug := rfl

theorem followsLatest_report {latest : AttributedTrigger}
    (last : spec.history.getLast? = some latest) (c : Credit) :
    (c.report spec source ctx).FollowsLatest source ctx latest := by
  constructor
  · change spec.debugKeyFor ctx c.trigger = if c.trigger.triggerId = latest.triggerId then _ else _
    simp only [ReportSpec.debugKeyFor, last, Option.map_some, Option.some.injEq, eq_comm]
  · rfl

end Credit

/-! ## Desired reports -/

namespace ReportSpec

variable {spec : ReportSpec} {history : List AttributedTrigger}

theorem credits_eq_of_perm (distinct : spec.history.Pairwise fun a b => ¬a.Tied b)
    (perm : history.Perm spec.history) (eventTime : Int) :
    ({ spec with history } : ReportSpec).credits eventTime = spec.credits eventTime := by
  unfold credits
  rw [rankTriggers_eq_of_perm distinct perm]

theorem followsLatest_of_mem_desired {source : Source} {ctx : ReportContext} {r : EventReport}
    (h : r ∈ spec.desired source ctx) :
    ∃ latest, spec.history.getLast? = some latest ∧ r.FollowsLatest source ctx latest := by
  rw [desired_eq_map] at h
  obtain ⟨c, hc, rfl⟩ := List.mem_map.1 h
  have nonempty : spec.history ≠ [] := List.ne_nil_of_mem (of_mem_credits hc).1
  have last := List.getLast?_eq_some_getLast nonempty
  exact ⟨_, last, c.followsLatest_report last⟩

/-- When no two triggers of a history share both priority and time, the order in which they arrived
does not matter: the desired reports are the same ones in the same order, but for the debug key and
the debug report, which go by the trigger that arrived last. Either way they are worked out from the
triggers in the one order of strictly falling rank. -/
theorem desired_of_reordered (distinct : spec.history.Pairwise fun a b => ¬a.Tied b)
    (reordered : history.Perm spec.history) (source : Source) (ctx : ReportContext) :
    let other : ReportSpec := { spec with history }
    (other.desired source ctx).map EventReport.withoutDebug =
        (spec.desired source ctx).map EventReport.withoutDebug ∧
      (∀ r ∈ spec.desired source ctx, ∃ latest, spec.history.getLast? = some latest ∧
        r.FollowsLatest source ctx latest) ∧
      (∀ r ∈ other.desired source ctx, ∃ latest, history.getLast? = some latest ∧
        r.FollowsLatest source ctx latest) ∧
      ∃ ranked : List AttributedTrigger, ranked.Perm spec.history ∧
        ranked.Pairwise (fun a b =>
          b.priority < a.priority ∨ (a.priority = b.priority ∧ a.time < b.time)) ∧
        spec.desired source ctx = spec.desiredFrom source ctx [] ranked ∧
          other.desired source ctx = other.desiredFrom source ctx [] ranked := by
  intro other
  refine ⟨?_, fun _ => followsLatest_of_mem_desired, fun _ => followsLatest_of_mem_desired,
    rankTriggers spec.history, rankTriggers_perm _, pairwise_rankTriggers distinct, rfl, ?_⟩
  · rw [desired_eq_map, desired_eq_map, List.map_map, List.map_map,
      credits_eq_of_perm distinct reordered]
    exact List.map_congr_left fun c _ => c.withoutDebug_report other spec
  · unfold desired
    rw [rankTriggers_eq_of_perm distinct reordered]

/-- Three triggers, the last of which ranks between the others. -/
def sampleArrivals : ReportSpec :=
  ⟨Sample.flexibleConfig 4, rfl,
    [Sample.attributed "trigger1" 1 1 1, Sample.attributed "trigger2" 2 1 5,
      Sample.attributed "trigger3" 3 2 5]⟩

/-- The same triggers with the one of the highest rank last. -/
def sampleRearranged : ReportSpec :=
  { sampleArrivals with
    history :=
      [Sample.attributed "trigger3" 3 2 5, Sample.attributed "trigger1" 1 1 1,
        Sample.attributed "trigger2" 2 1 5] }

def sampleDebugged : Source := { Sample.source with debugKey := some 7 }

def sampleDebugContext : ReportContext :=
  { Sample.onTime (Sample.attributed "trigger3" 3 2 5) with triggerDebugKey := some 9 }

/-- Both times the first two reports are those of the two triggers with the higher priority, the
earlier one first; the debug report goes along with that of the trigger that arrived last. -/
theorem desired_of_reordered_sample :
    (sampleArrivals.desired sampleDebugged sampleDebugContext).map (·.id) =
        ["source1:trigger2:1", "source1:trigger3:1", "source1:trigger1:2"] ∧
      (sampleRearranged.desired sampleDebugged sampleDebugContext).map (·.id) =
        (sampleArrivals.desired sampleDebugged sampleDebugContext).map (·.id) ∧
      (sampleArrivals.desired sampleDebugged sampleDebugContext).map (·.debugStatus) =
        [.none, .pending, .none] ∧
      (sampleRearranged.desired sampleDebugged sampleDebugContext).map (·.debugStatus) =
        [.pending, .none, .none] := by
  have distinct : sampleArrivals.history.Pairwise fun a b => ¬a.Tied b := by decide
  have reordered : sampleRearranged.history.Perm sampleArrivals.history := by decide
  obtain ⟨same, -⟩ := desired_of_reordered distinct reordered sampleDebugged sampleDebugContext
  have ids := congrArg (List.map EventReport.id) same
  rw [List.map_map, List.map_map] at ids
  exact ⟨by cbv, ids, by cbv, by cbv⟩

end ReportSpec

end AttributionReporting
