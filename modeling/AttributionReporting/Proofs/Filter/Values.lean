import AttributionReporting.Aggregate.Contribution
import AttributionReporting.Proofs.Filter.Modes
import AttributionReporting.Sample
import AttributionReporting.Selection

/-!
# What a clause does not depend on

Of the values under a key only the set matters, and of the maps of a clause only the set of what
they constrain: `FilterMap.SameValues` and `FilterClause.SameConstraint` forget order and
repetition, and a clause cannot tell things apart that they relate (`FilterClause.admits_congr`). A
further map can only widen a clause that has one, a further key can only narrow it. What a trigger
offers to a source is chosen by its clauses, so that it does not depend on order and repetition in
the filter data of the source either.
-/

namespace AttributionReporting

/-! ## Values under a key -/

theorem valuesMeet_congr {a a' b b' : List String} (left : a.toFinset = a'.toFinset)
    (right : b.toFinset = b'.toFinset) : ValuesMeet a b ↔ ValuesMeet a' b' := by
  have meet (a b : List String) : ValuesMeet a b ↔
      (a.toFinset ∩ b.toFinset).Nonempty ∨ a.toFinset = ∅ ∧ b.toFinset = ∅ := by
    simp [ValuesMeet, Finset.Nonempty]
  rw [meet, meet, left, right]

theorem MatchMode.admits_congr (mode : MatchMode) {a a' b b' : List String}
    (left : a.toFinset = a'.toFinset) (right : b.toFinset = b'.toFinset) :
    mode.admits a b = mode.admits a' b' := by
  have meet := valuesMeet_congr left right
  rw [Bool.eq_iff_iff]
  cases mode with
  | filters => rw [filters_admits_iff, filters_admits_iff, meet]
  | notFilters => rw [notFilters_admits_iff, notFilters_admits_iff, meet]

/-! ## Maps -/

namespace FilterMap

/-- Whether two maps have the same keys, and under each of them the same set of values. -/
def SameValues (m m' : FilterMap) : Prop :=
  ∀ key, (m.get? key).map List.toFinset = (m'.get? key).map List.toFinset

variable {m m' : FilterMap} {source source' map map' : FilterMap} {mode : MatchMode}

theorem SameValues.refl (m : FilterMap) : SameValues m m := fun _ => rfl

theorem SameValues.symm (same : SameValues m m') : SameValues m' m := fun key => (same key).symm

theorem SameValues.exists_get? (same : SameValues m m') {key : String} {values' : List String}
    (held : m'.get? key = some values') :
    ∃ values, m.get? key = some values ∧ values.toFinset = values'.toFinset := by
  have sets := same key
  rw [held, Option.map_some, Option.map_eq_some_iff] at sets
  exact sets

theorem SameValues.insert (same : SameValues m m') (key : String) {values values' : List String}
    (sets : values.toFinset = values'.toFinset) :
    SameValues (m.insert key values) (m'.insert key values') := by
  intro other
  rw [StringMap.get?_insert, StringMap.get?_insert]
  split
  · simp [sets]
  · exact same other

theorem admits_of_sameValues (sources : SameValues source source') (maps : SameValues map map')
    (agree : source.admits mode map = true) : source'.admits mode map' = true := by
  rw [admits_iff] at agree ⊢
  intro key a' b' known' given'
  obtain ⟨a, known, left⟩ := sources.exists_get? known'
  obtain ⟨b, given, right⟩ := maps.exists_get? given'
  rw [← mode.admits_congr left right]
  exact agree key a b known given

/-- A key more is a condition more. -/
theorem admits_of_insert {key : String} {values : List String} (new : map.get? key = none)
    (agree : source.admits mode (map.insert key values) = true) :
    source.admits mode map = true := by
  rw [admits_iff] at agree ⊢
  intro other a b known given
  have ne : other ≠ key := by
    rintro rfl
    simp [new] at given
  refine agree other a b known ?_
  rw [StringMap.get?_insert, if_neg ne, given]

end FilterMap

/-! ## Clauses -/

namespace FilterClause

/-- Whether two clauses are of one kind and constrain filter data by the same maps, in any order and
any number, each of them up to `FilterMap.SameValues`. -/
inductive SameConstraint : FilterClause → FilterClause → Prop
  | unconstrained : SameConstraint .unconstrained .unconstrained
  | malformed : SameConstraint .malformed .malformed
  | anyOf {maps maps' : List FilterMap} (covered : ∀ m ∈ maps, ∃ m' ∈ maps', m.SameValues m')
      (covers : ∀ m' ∈ maps', ∃ m ∈ maps, m'.SameValues m) :
      SameConstraint (.anyOf maps) (.anyOf maps')

variable {source source' : FilterMap} {mode : MatchMode} {clause clause' : FilterClause}

theorem SameConstraint.symm (same : SameConstraint clause clause') :
    SameConstraint clause' clause := by
  cases same with
  | unconstrained => exact .unconstrained
  | malformed => exact .malformed
  | anyOf covered covers => exact .anyOf covers covered

theorem SameConstraint.refl (clause : FilterClause) : SameConstraint clause clause := by
  cases clause with
  | unconstrained => exact .unconstrained
  | malformed => exact .malformed
  | anyOf maps =>
    have same : ∀ m ∈ maps, ∃ m' ∈ maps, m.SameValues m' := fun m mem => ⟨m, mem, .refl m⟩
    exact .anyOf same same

theorem admits_of_sameConstraint (sources : source.SameValues source')
    (same : SameConstraint clause clause') (pass : clause.admits source mode = true) :
    clause'.admits source' mode = true := by
  cases same with
  | unconstrained => rfl
  | malformed => exact pass
  | @anyOf maps maps' covered covers =>
    by_cases empty : maps' = []
    · simp [admits, empty]
    · have nonempty : maps ≠ [] := by
        rintro rfl
        obtain ⟨m', mem⟩ := List.exists_mem_of_ne_nil maps' empty
        obtain ⟨m, mem, -⟩ := covers m' mem
        simp at mem
      rw [admits_anyOf_iff nonempty] at pass
      rw [admits_anyOf_iff empty]
      obtain ⟨m, mem, agree⟩ := pass
      obtain ⟨m', mem', maps⟩ := covered m mem
      exact ⟨m', mem', FilterMap.admits_of_sameValues sources maps agree⟩

theorem admits_congr (sources : source.SameValues source') (same : SameConstraint clause clause') :
    clause.admits source mode = clause'.admits source' mode := by
  rw [Bool.eq_iff_iff]
  exact ⟨admits_of_sameConstraint sources same, admits_of_sameConstraint sources.symm same.symm⟩

theorem admits_of_subset {maps maps' : List FilterMap} (nonempty : maps ≠ [])
    (sub : maps ⊆ maps') (pass : (anyOf maps).admits source mode = true) :
    (anyOf maps').admits source mode = true := by
  obtain ⟨map, mem, agree⟩ := (admits_anyOf_iff nonempty).1 pass
  have nonempty' : maps' ≠ [] := List.ne_nil_of_mem (sub mem)
  exact (admits_anyOf_iff nonempty').2 ⟨map, sub mem, agree⟩

theorem admits_of_insert {before after : List FilterMap} {map : FilterMap} {key : String}
    {values : List String} (new : map.get? key = none)
    (pass : (anyOf (before ++ map.insert key values :: after)).admits source mode = true) :
    (anyOf (before ++ map :: after)).admits source mode = true := by
  rw [admits_anyOf_iff (by simp)] at pass ⊢
  obtain ⟨admitting, mem, agree⟩ := pass
  rw [List.mem_append, List.mem_cons] at mem
  rcases mem with mem | rfl | mem
  · exact ⟨admitting, by simp [mem], agree⟩
  · exact ⟨map, by simp, FilterMap.admits_of_insert new agree⟩
  · exact ⟨admitting, by simp [mem], agree⟩

end FilterClause

/-! ## What a trigger offers to a source -/

theorem clausesPass_congr {source source' : FilterMap} (same : source.SameValues source')
    (filters notFilters : FilterClause) :
    clausesPass source filters notFilters = clausesPass source' filters notFilters := by
  unfold clausesPass
  rw [FilterClause.admits_congr same (.refl filters),
    FilterClause.admits_congr same (.refl notFilters)]

section

variable {source : Source} {data : FilterMap}

theorem Source.sameValues_matchingData (same : source.filterData.SameValues data) :
    source.matchingData.SameValues { source with filterData := data }.matchingData :=
  same.insert Source.typeKey rfl

theorem passingData_congr (same : source.filterData.SameValues data) (trigger : Trigger) :
    passingData { source with filterData := data } trigger = passingData source trigger := by
  unfold passingData
  simp only [clausesPass_congr (Source.sameValues_matchingData same)]

theorem selectDatum_filterData (same : source.filterData.SameValues data) (trigger : Trigger) :
    selectDatum { source with filterData := data } trigger = selectDatum source trigger := by
  unfold selectDatum
  simp only [clausesPass_congr (Source.sameValues_matchingData same)]

theorem matchingDedupKey_filterData (same : source.filterData.SameValues data)
    (trigger : Trigger) :
    matchingDedupKey { source with filterData := data } trigger =
      matchingDedupKey source trigger := by
  unfold matchingDedupKey
  simp only [clausesPass_congr (Source.sameValues_matchingData same)]

/-- Which data pass is all that contributions need the filter data for. -/
theorem contributions_filterData (same : source.filterData.SameValues data) (trigger : Trigger) :
    contributions { source with filterData := data } trigger = contributions source trigger := by
  unfold contributions namedBuckets
  rw [passingData_congr same]
  rfl

end

/-- Of the values under a key only the set matters, and of the maps of a clause only the set of what
they constrain. A further map never makes a clause fail that has a map, and a further key in a map
never makes it pass. So a source gets the same datum, the same contributions and the same dedup key
from a trigger when its filter data give the same values in another order and number. -/
theorem matching_by_value_sets :
    (∀ (data data' : FilterMap) (clause clause' : FilterClause) (mode : MatchMode),
      data.SameValues data' → clause.SameConstraint clause' →
        clause.admits data mode = clause'.admits data' mode) ∧
      (∀ (data : FilterMap) (mode : MatchMode) (maps maps' : List FilterMap),
        maps ≠ [] → maps ⊆ maps' → (FilterClause.anyOf maps).admits data mode = true →
          (FilterClause.anyOf maps').admits data mode = true) ∧
      (∀ (data : FilterMap) (mode : MatchMode) (before after : List FilterMap) (map : FilterMap)
          (key : String) (values : List String), map.get? key = none →
        (FilterClause.anyOf (before ++ map :: after)).admits data mode = false →
          (FilterClause.anyOf (before ++ map.insert key values :: after)).admits data mode =
            false) ∧
      ∀ (source : Source) (data : FilterMap) (trigger : Trigger),
        source.filterData.SameValues data →
          let reordered := { source with filterData := data }
          selectDatum reordered trigger = selectDatum source trigger ∧
            contributions reordered trigger = contributions source trigger ∧
            matchingDedupKey reordered trigger = matchingDedupKey source trigger := by
  refine ⟨fun data data' clause clause' mode => FilterClause.admits_congr,
    fun data mode maps maps' => FilterClause.admits_of_subset, ?_, ?_⟩
  · intro data mode before after map key values new fail
    rw [← Bool.not_eq_true] at fail ⊢
    exact mt (FilterClause.admits_of_insert new) fail
  · intro source data trigger same
    exact ⟨selectDatum_filterData same trigger, contributions_filterData same trigger,
      matchingDedupKey_filterData same trigger⟩

/-- Filter data and clauses that name some products. -/
def sampleProducts (products : List String) : FilterMap := (∅ : FilterMap).insert "product" products

/-- A trigger that offers something for coats first and then for hats. -/
def sampleAssortment : Trigger :=
  let coats : FilterClause := .anyOf [sampleProducts ["coats"]]
  let hats : FilterClause := .anyOf [sampleProducts ["hats", "caps"]]
  { Sample.trigger with
    eventData := [{ data := 1, filters := coats }, { data := 2, filters := hats }]
    aggregatableData :=
      [⟨0x400#128, ["campaign"], coats, .unconstrained⟩,
        ⟨0x8#128, ["campaign"], hats, .unconstrained⟩]
    aggregateValues := StringMap.ofList [("campaign", 32768)]
    aggregateDedupKeys := [⟨some 7, coats, .unconstrained⟩, ⟨some 8, hats, .unconstrained⟩] }

/-- A source that names these products and has an aggregation key. -/
def sampleShop (products : List String) : Source :=
  { Sample.source with
    filterData := sampleProducts products
    aggregationKeys := (∅ : StringMap KeyPiece).insert "campaign" 0x159#128 }

/-- A source for shoes and hats gets what is for hats, also when it names them in another order and
the hats twice. -/
theorem matching_by_value_sets_sample :
    let hats := sampleProducts ["hats", "caps"]
    let hats' := sampleProducts ["caps", "hats", "caps"]
    let coats := sampleProducts ["coats"]
    let data := sampleProducts ["shoes", "hats"]
    let data' := sampleProducts ["hats", "shoes", "hats"]
    data.SameValues data' ∧
      (FilterClause.anyOf [hats]).SameConstraint (.anyOf [hats', hats]) ∧
      (FilterClause.anyOf [hats', hats]).admits data' .filters = true ∧
      (FilterClause.anyOf [coats, hats]).admits data .filters = true ∧
      (FilterClause.anyOf [coats.insert "size" ["s"]]).admits data .filters = false ∧
      selectDatum (sampleShop ["hats", "shoes", "hats"]) sampleAssortment =
        sampleAssortment.eventData[1]? ∧
      contributions (sampleShop ["hats", "shoes", "hats"]) sampleAssortment =
        [⟨0x159#128 ||| 0x8#128, 32768⟩] ∧
      matchingDedupKey (sampleShop ["hats", "shoes", "hats"]) sampleAssortment = some 8 := by
  intro hats hats' coats data data'
  have same : data.SameValues data' := (FilterMap.SameValues.refl ∅).insert "product" (by decide)
  have sameHats : hats.SameValues hats' :=
    (FilterMap.SameValues.refl ∅).insert "product" (by decide)
  have clauses : (FilterClause.anyOf [hats]).SameConstraint (.anyOf [hats', hats]) := by
    apply FilterClause.SameConstraint.anyOf
    · intro m mem
      rw [List.mem_singleton] at mem
      exact ⟨hats', List.mem_cons_self, mem ▸ sameHats⟩
    · simp [sameHats.symm, FilterMap.SameValues.refl]
  have pass : (FilterClause.anyOf [hats]).admits data .filters = true := by decide
  have fail : (FilterClause.anyOf [coats]).admits data .filters = false := by decide
  obtain ⟨congr, wider, narrower, offered⟩ := matching_by_value_sets
  obtain ⟨datum, contributed, key⟩ :=
    offered (sampleShop ["shoes", "hats"]) data' sampleAssortment same
  exact ⟨same, clauses, (congr _ _ _ _ _ same clauses).symm.trans pass,
    wider _ _ _ _ (List.cons_ne_nil _ _) (List.subset_cons_self coats [hats]) pass,
    narrower _ _ [] [] coats "size" ["s"] (by decide) fail,
    datum.trans (by decide), contributed.trans (by decide), key.trans (by decide)⟩

end AttributionReporting
