import AttributionReporting.Proofs.StableSort
import AttributionReporting.Sample
import AttributionReporting.Selection
import Mathlib.Data.List.Nodup
import Mathlib.Data.List.Permutation
import Mathlib.Data.Prod.Lex

/-!
# The source that wins

The sources that match a trigger are put in the order of their ranks (`Source.rank`): a source that
is protected ranks above all that are not, then the priority counts, then the time. `selectSource`
gives the first one and the rest. Nothing is lost on the way, sources of one rank stay in the order
in which they came (`filter_rank_rankSources`), and where every rank is taken once the order in
which they came does not matter at all (`rankSources_eq_of_perm`).
-/

namespace AttributionReporting

/-! ## Ranks -/

namespace Source

/-- What the rank of a source for a trigger at `time` is made of, the weightiest first. -/
def rank (time : Int) (s : Source) : Bool ×ₗ Int ×ₗ Int :=
  toLex (s.isProtected time, toLex (s.priority, s.eventTime))

theorem ranksBefore_iff {time : Int} {a b : Source} :
    a.ranksBefore time b = true ↔ b.rank time ≤ a.rank time := by
  unfold ranksBefore rank
  rw [Prod.Lex.toLex_le_toLex, Prod.Lex.toLex_le_toLex]
  by_cases same : a.priority = b.priority
  · cases a.isProtected time <;> cases b.isProtected time <;> simp [same]
  · have notEqual : ¬ b.priority = a.priority := Ne.symm same
    cases a.isProtected time <;> cases b.isProtected time <;> simp [same, notEqual]

theorem ranksBefore_trans {time : Int} (a b c : Source) (hab : a.ranksBefore time b = true)
    (hbc : b.ranksBefore time c = true) : a.ranksBefore time c = true := by
  rw [ranksBefore_iff] at *
  exact hbc.trans hab

theorem ranksBefore_total {time : Int} (a b : Source) :
    (a.ranksBefore time b || b.ranksBefore time a) = true := by
  rw [Bool.or_eq_true, ranksBefore_iff, ranksBefore_iff]
  exact le_total _ _

/-- A source of a higher rank is protected if one of a lower rank is. -/
theorem isProtected_of_rank_le {time : Int} {a b : Source} (le : b.rank time ≤ a.rank time)
    (protects : b.isProtected time = true) : a.isProtected time = true := by
  unfold rank at le
  rw [Prod.Lex.toLex_le_toLex] at le
  rcases le with lt | ⟨eq, -⟩
  · exact absurd lt (by simp [protects])
  · exact eq.symm.trans protects

end Source

/-! ## Ranked sources -/

section

variable (time : Int) (sources : List Source)

theorem rankSources_perm : (rankSources time sources).Perm sources :=
  List.mergeSort_perm sources _

theorem rankSources_sorted :
    (rankSources time sources).Pairwise fun a b => b.rank time ≤ a.rank time :=
  (List.pairwise_mergeSort Source.ranksBefore_trans Source.ranksBefore_total sources).imp
    Source.ranksBefore_iff.1

/-- Sources of one rank stay in the order in which they came. -/
theorem filter_rank_rankSources (rank : Bool ×ₗ Int ×ₗ Int) :
    (rankSources time sources).filter (·.rank time = rank) =
      sources.filter (·.rank time = rank) := by
  apply filter_mergeSort Source.ranksBefore_trans Source.ranksBefore_total
  intro a b ha hb
  rw [decide_eq_true_eq] at ha hb
  rw [Source.ranksBefore_iff, ha, hb]

variable {time sources}

/-- When no two different sources have one rank, only the sources matter and not their order. -/
theorem rankSources_eq_of_perm {sources' : List Source} (perm : sources'.Perm sources)
    (distinct : ∀ a ∈ sources, ∀ b ∈ sources, a.rank time = b.rank time → a = b) :
    rankSources time sources' = rankSources time sources := by
  refine mergeSort_eq_of_perm Source.ranksBefore_trans Source.ranksBefore_total ?_ perm
  intro a ha b hb higher lower
  rw [Source.ranksBefore_iff] at higher lower
  exact distinct a ha b hb (le_antisymm lower higher)

theorem selectSource_eq_some_iff {trigger : Trigger} {winner : Source} {losers : List Source} :
    selectSource sources trigger = some (winner, losers) ↔
      rankSources trigger.time sources = winner :: losers := by
  unfold selectSource
  cases rankSources trigger.time sources with
  | nil => simp
  | cons first rest => simp

end

/-- Of some sources the first by rank wins: one that is protected, if there is any, and among those
the one of the highest priority and then of the latest time. The winner and the others are the given
sources from the highest rank to the lowest, those of one rank in the order in which they were
given. If every rank is taken at most once, that order does not matter. A source that led to an
install is protected until its cooldown is over, if 64 bits hold the time at which that is. -/
theorem selectSource_exact {sources : List Source} (nonempty : sources ≠ []) (trigger : Trigger) :
    (∃ winner losers, selectSource sources trigger = some (winner, losers) ∧
      (winner :: losers).Perm sources ∧
      (winner :: losers).Pairwise (fun a b => b.rank trigger.time ≤ a.rank trigger.time) ∧
      (∀ rank, (winner :: losers).filter (·.rank trigger.time = rank) =
        sources.filter (·.rank trigger.time = rank)) ∧
      ((winner :: losers).Pairwise fun a b =>
        b.isProtected trigger.time = true → a.isProtected trigger.time = true) ∧
      ((∀ a ∈ sources, ∀ b ∈ sources, a.rank trigger.time = b.rank trigger.time → a = b) →
        ∀ sources', sources'.Perm sources →
          selectSource sources' trigger = some (winner, losers))) ∧
      ∀ s ∈ sources, Time.Fits (s.eventTime + s.installCooldown) →
        (s.isProtected trigger.time = true ↔
          s.installAttributed = true ∧ trigger.time < s.eventTime + s.installCooldown) := by
  refine ⟨?_, fun s _ => Source.isProtected_iff⟩
  have perm := rankSources_perm trigger.time sources
  have sorted := rankSources_sorted trigger.time sources
  have stable := filter_rank_rankSources trigger.time sources
  cases ranked : rankSources trigger.time sources with
  | nil =>
    rw [ranked] at perm
    exact absurd perm.symm.eq_nil nonempty
  | cons winner losers =>
    rw [ranked] at perm sorted stable
    refine ⟨winner, losers, selectSource_eq_some_iff.2 ranked, perm, sorted, stable,
      sorted.imp Source.isProtected_of_rank_le, fun distinct sources' reordered => ?_⟩
    rw [selectSource_eq_some_iff, rankSources_eq_of_perm reordered distinct, ranked]

/-- The sample source with a priority, so many days after its time. -/
def sampleRanked (id : String) (priority days : Int) : Source :=
  { Sample.source with id, priority, eventTime := Sample.source.eventTime + Time.days days }

/-- Three sources of two priorities and an old one of a low priority that is protected. -/
def sampleContest : List Source :=
  [sampleRanked "low" 1 0, sampleRanked "old" 5 (-2), sampleRanked "new" 5 (-1),
    { sampleRanked "protected" 0 (-3) with
      installAttributed := true
      installCooldown := Time.days 10 }]

/-- The protected source wins, in whatever order the sources are given. -/
theorem selectSource_exact_sample :
    sampleContest ≠ [] ∧
      ∃ winner losers, selectSource sampleContest Sample.trigger = some (winner, losers) ∧
        winner.id = "protected" ∧ losers.map (·.id) = ["new", "old", "low"] ∧
        selectSource sampleContest.reverse Sample.trigger = some (winner, losers) := by
  have nonempty : sampleContest ≠ [] := List.cons_ne_nil _ _
  obtain ⟨⟨winner, losers, won, -, -, -, -, anyOrder⟩, -⟩ :=
    selectSource_exact nonempty Sample.trigger
  have ids : (selectSource sampleContest Sample.trigger).map
      (fun (winner, losers) => (winner.id, losers.map (·.id))) =
        some ("protected", ["new", "old", "low"]) := by
    cbv
  have ranks : (sampleContest.map (Source.rank Sample.trigger.time)).Nodup := by decide
  rw [won, Option.map_some, Option.some.injEq, Prod.mk.injEq] at ids
  refine ⟨nonempty, winner, losers, won, ids.1, ids.2, ?_⟩
  exact anyOrder (fun a ha b hb => List.inj_on_of_nodup_map ranks ha hb) _
    (List.reverse_perm sampleContest)

end AttributionReporting
