import AttributionReporting.Filter.Match
import Mathlib.Data.Finset.Card

/-!
# How the two modes of a clause relate

A filter map compares the values of the keys that it shares with the filter data
(`FilterMap.admits_iff`). As `filters` it fails on a common key whose values do not meet, as
`notFilters` on one whose values do. So the modes are opposites for a map with one common key, both
pass without a common key, and with several of them both may fail (`FilterClause.modes_related`).
-/

namespace AttributionReporting

/-! ## The values of one key -/

/-- Whether two value lists share a value or are both empty. -/
def ValuesMeet (a b : List String) : Prop :=
  (∃ v, v ∈ a ∧ v ∈ b) ∨ (a = [] ∧ b = [])

theorem valuesMeet_comm {a b : List String} : ValuesMeet a b ↔ ValuesMeet b a := by
  unfold ValuesMeet
  simp only [and_comm]

theorem valuesIntersect_iff {a b : List String} : valuesIntersect a b = true ↔ ValuesMeet a b := by
  unfold valuesIntersect ValuesMeet
  cases b with
  | nil => simp
  | cons v rest =>
    simp only [List.isEmpty_cons, Bool.false_eq_true, if_false, List.any_eq_true,
      List.contains_iff_mem, and_comm, reduceCtorEq, false_and, or_false]

namespace MatchMode

theorem filters_admits_iff {a b : List String} :
    filters.admits a b = true ↔ ValuesMeet a b :=
  valuesIntersect_iff

theorem notFilters_admits_eq (a b : List String) :
    notFilters.admits a b = !filters.admits a b := rfl

theorem notFilters_admits_iff {a b : List String} :
    notFilters.admits a b = true ↔ ¬ ValuesMeet a b := by
  rw [notFilters_admits_eq, Bool.not_eq_true', ← filters_admits_iff, Bool.not_eq_true]

theorem admits_comm (mode : MatchMode) (a b : List String) : mode.admits a b = mode.admits b a := by
  rw [Bool.eq_iff_iff]
  cases mode with
  | filters => rw [filters_admits_iff, filters_admits_iff, valuesMeet_comm]
  | notFilters => rw [notFilters_admits_iff, notFilters_admits_iff, valuesMeet_comm]

end MatchMode

/-! ## One map -/

/-- The keys of a map. -/
def StringMap.keys {α : Type} (m : StringMap α) : Finset String := (m.entries.map Prod.fst).toFinset

theorem StringMap.mem_keys {α : Type} {m : StringMap α} {key : String} :
    key ∈ m.keys ↔ ∃ v, m.get? key = some v := by
  simp [keys, get?_eq_some_iff]

namespace FilterMap

/-- Whether two maps have a common key with values that are related by `related`. -/
def ShareKey (source map : FilterMap) (related : List String → List String → Prop) : Prop :=
  ∃ key a b, source.get? key = some a ∧ map.get? key = some b ∧ related a b

variable {source map : FilterMap} {mode : MatchMode}

/-- A map admits filter data that agree with it on every common key. -/
theorem admits_iff : source.admits mode map = true ↔
    ∀ key a b, source.get? key = some a → map.get? key = some b → mode.admits a b = true := by
  unfold admits
  rw [List.all_eq_true]
  constructor
  · intro all key a b known given
    have agree := all (key, b) (StringMap.get?_eq_some_iff.1 given)
    simpa [known] using agree
  · rintro agree ⟨key, b⟩ mem
    have given := StringMap.get?_eq_some_iff.2 mem
    cases known : source.get? key with
    | none => simp [known]
    | some a => simpa [known] using agree key a b known given

theorem admits_eq_false_iff : source.admits mode map = false ↔
    ShareKey source map fun a b => mode.admits a b = false := by
  rw [← Bool.not_eq_true, admits_iff]
  simp [ShareKey]

theorem filters_eq_false_iff : source.admits .filters map = false ↔
    ShareKey source map fun a b => ¬ ValuesMeet a b := by
  simp only [admits_eq_false_iff, ← MatchMode.filters_admits_iff, Bool.not_eq_true]

theorem notFilters_eq_false_iff :
    source.admits .notFilters map = false ↔ ShareKey source map ValuesMeet := by
  simp only [admits_eq_false_iff, MatchMode.notFilters_admits_eq, Bool.not_eq_false',
    MatchMode.filters_admits_iff]

theorem admits_comm (source map : FilterMap) (mode : MatchMode) :
    map.admits mode source = source.admits mode map := by
  rw [Bool.eq_iff_iff, admits_iff, admits_iff]
  constructor
  · intro agree key a b known given
    rw [mode.admits_comm]
    exact agree key b a given known
  · intro agree key a b given known
    rw [mode.admits_comm]
    exact agree key b a known given

/-! ## Common keys -/

theorem mem_common {key : String} :
    key ∈ source.keys ∩ map.keys ↔ ∃ a b, source.get? key = some a ∧ map.get? key = some b := by
  rw [Finset.mem_inter, StringMap.mem_keys, StringMap.mem_keys, exists_and_exists_comm]

/-- A map with one key in common looks at the values of that key only. -/
theorem admits_of_common_eq_singleton {key : String} {a b : List String}
    (common : source.keys ∩ map.keys = {key}) (known : source.get? key = some a)
    (given : map.get? key = some b) (mode : MatchMode) :
    source.admits mode map = mode.admits a b := by
  rw [Bool.eq_iff_iff, admits_iff]
  constructor
  · intro agree
    exact agree key a b known given
  · intro agree other a' b' known' given'
    have same : other = key := by
      rw [← Finset.mem_singleton, ← common, mem_common]
      exact ⟨a', b', known', given'⟩
    subst same
    rw [known] at known'
    rw [given] at given'
    cases known'
    cases given'
    exact agree

theorem notFilters_of_card_common (one : (source.keys ∩ map.keys).card = 1) :
    source.admits .notFilters map = !source.admits .filters map := by
  obtain ⟨key, common⟩ := Finset.card_eq_one.1 one
  have mem : key ∈ source.keys ∩ map.keys := by simp [common]
  obtain ⟨a, b, known, given⟩ := mem_common.1 mem
  rw [admits_of_common_eq_singleton common known given,
    admits_of_common_eq_singleton common known given, MatchMode.notFilters_admits_eq]

/-- On a common key one of the modes fails. -/
theorem both_modes_iff :
    (source.admits .filters map = true ∧ source.admits .notFilters map = true) ↔
      source.keys ∩ map.keys = ∅ := by
  rw [Finset.eq_empty_iff_forall_notMem]
  constructor
  · rintro ⟨filters, notFilters⟩ key common
    obtain ⟨a, b, known, given⟩ := mem_common.1 common
    have meet := MatchMode.filters_admits_iff.1 (admits_iff.1 filters key a b known given)
    exact MatchMode.notFilters_admits_iff.1 (admits_iff.1 notFilters key a b known given) meet
  · intro none
    have agree (mode : MatchMode) : source.admits mode map = true := by
      rw [admits_iff]
      intro key a b known given
      exact absurd (mem_common.2 ⟨a, b, known, given⟩) (none key)
    exact ⟨agree .filters, agree .notFilters⟩

end FilterMap

/-! ## Clauses -/

namespace FilterClause

variable {source : FilterMap} {mode : MatchMode}

@[simp]
theorem admits_singleton (map : FilterMap) :
    (anyOf [map]).admits source mode = source.admits mode map := by
  simp [admits]

theorem admits_anyOf_iff {maps : List FilterMap} (nonempty : maps ≠ []) :
    (anyOf maps).admits source mode = true ↔ ∃ map ∈ maps, source.admits mode map = true := by
  simp [admits, nonempty]

theorem admits_anyOf_eq_false_iff {maps : List FilterMap} (nonempty : maps ≠ []) :
    (anyOf maps).admits source mode = false ↔ ∀ map ∈ maps, source.admits mode map = false := by
  simp [admits, nonempty]

/-- As clauses of one map, both modes pass if the map has no key in common with the filter data, and
otherwise not both; with one common key exactly one passes. A clause of some maps fails as `filters`
when every map has a common key whose values do not meet, and as `notFilters` when every map has a
common key whose values do. One map and the filter data may be exchanged. -/
theorem modes_related (source : FilterMap) :
    (∀ map : FilterMap,
      let common := source.keys ∩ map.keys
      let passes (mode : MatchMode) : Bool := (anyOf [map]).admits source mode
      ((passes .filters = true ∧ passes .notFilters = true) ↔ common = ∅) ∧
        (common.card = 1 → passes .notFilters = !passes .filters) ∧
        (common.Nonempty → ¬ (passes .filters = true ∧ passes .notFilters = true)) ∧
        ∀ mode, (anyOf [source]).admits map mode = passes mode) ∧
      ∀ maps : List FilterMap, maps ≠ [] →
        ((anyOf maps).admits source .notFilters = false ↔
          ∀ map ∈ maps, source.ShareKey map ValuesMeet) ∧
        ((anyOf maps).admits source .filters = false ↔
          ∀ map ∈ maps, source.ShareKey map fun a b => ¬ ValuesMeet a b) := by
  refine ⟨fun map => ?_, fun maps nonempty => ?_⟩
  · simp only [admits_singleton]
    refine ⟨FilterMap.both_modes_iff, FilterMap.notFilters_of_card_common, ?_,
      FilterMap.admits_comm source map⟩
    intro nonempty both
    exact nonempty.ne_empty (FilterMap.both_modes_iff.1 both)
  · simp only [admits_anyOf_eq_false_iff nonempty, FilterMap.filters_eq_false_iff,
      FilterMap.notFilters_eq_false_iff, and_self]

/-- Filter data with two keys, one of them without values. -/
def sampleSegments : FilterMap := StringMap.ofList [("geo", ["eu", "us"]), ("plan", [])]

/-- A map that shares both keys with the filter data and meets it under the first only. -/
def sampleMixed : FilterMap := StringMap.ofList [("geo", ["us"]), ("plan", ["basic"])]

/-- A map that shares one key with the filter data, and gives no value for it either. -/
def samplePlanless : FilterMap := StringMap.ofList [("plan", []), ("size", ["s"])]

/-- With two common keys both modes may fail, with one exactly one of them does. -/
theorem modes_related_sample :
    (sampleSegments.keys ∩ sampleMixed.keys).Nonempty ∧
      ¬ ((anyOf [sampleMixed]).admits sampleSegments .filters = true ∧
        (anyOf [sampleMixed]).admits sampleSegments .notFilters = true) ∧
      (anyOf [sampleMixed]).admits sampleSegments .filters = false ∧
      (anyOf [sampleMixed]).admits sampleSegments .notFilters = false ∧
      (sampleSegments.keys ∩ samplePlanless.keys).card = 1 ∧
      (anyOf [samplePlanless]).admits sampleSegments .filters = true ∧
      (anyOf [samplePlanless]).admits sampleSegments .notFilters = false ∧
      ∀ map ∈ [sampleMixed, samplePlanless], sampleSegments.ShareKey map ValuesMeet := by
  obtain ⟨single, several⟩ := modes_related sampleSegments
  obtain ⟨-, -, notBoth, -⟩ := single sampleMixed
  obtain ⟨-, opposite, -, -⟩ := single samplePlanless
  have two : (sampleSegments.keys ∩ sampleMixed.keys).Nonempty := ⟨"geo", by decide⟩
  have one : (sampleSegments.keys ∩ samplePlanless.keys).card = 1 := by decide
  have filters : (anyOf [samplePlanless]).admits sampleSegments .filters = true := by decide
  have neither :
      (anyOf [sampleMixed, samplePlanless]).admits sampleSegments .notFilters = false := by
    decide
  refine ⟨two, notBoth two, by decide, by decide, one, filters, (opposite one).trans ?_, ?_⟩
  · exact congrArg not filters
  · exact (several [sampleMixed, samplePlanless] (List.cons_ne_nil _ _)).1.1 neither

end FilterClause

end AttributionReporting
