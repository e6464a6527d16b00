import AttributionReporting.Aggregate.Contribution
import AttributionReporting.Proofs.FirstOccurrences
import AttributionReporting.Sample
import Mathlib

/-!
# What a trigger contributes

Every key that the passing data of a trigger name leads to at most one contribution, in the order in
which the keys are first named (`contributions_eq_filterMap`). Its bucket combines the key piece of
the source with those of all passing data that name the key, and its value is the one given for the
key. So only the order of the contributions depends on the order of the data, on data given twice
and on names given twice (`contributions_perm`), and together they are no more than the values given
(`totalValue_le`).
-/

namespace AttributionReporting

/-! ## Key pieces -/

/-- Some key pieces combined. -/
def combinedPieces (pieces : List KeyPiece) : KeyPiece := pieces.foldl (· ||| ·) 0

theorem combinedPieces_concat (pieces : List KeyPiece) (piece : KeyPiece) :
    combinedPieces (pieces ++ [piece]) = combinedPieces pieces ||| piece := by
  rw [combinedPieces, List.foldl_append]
  rfl

theorem getLsbD_combinedPieces (pieces : List KeyPiece) (i : Nat) :
    (combinedPieces pieces).getLsbD i = pieces.any fun piece => piece.getLsbD i := by
  induction pieces using List.reverseRecOn with
  | nil => exact BitVec.getLsbD_zero
  | append_singleton pieces piece ih =>
    rw [combinedPieces_concat, BitVec.getLsbD_or, ih, List.any_append, List.any_cons, List.any_nil,
      Bool.or_false]

/-- How often and in which order key pieces are combined does not matter. -/
theorem combinedPieces_congr {pieces pieces' : List KeyPiece}
    (same : ∀ piece, piece ∈ pieces ↔ piece ∈ pieces') :
    combinedPieces pieces = combinedPieces pieces' := by
  apply BitVec.eq_of_getLsbD_eq
  intro i _
  rw [getLsbD_combinedPieces, getLsbD_combinedPieces, Bool.eq_iff_iff, List.any_eq_true,
    List.any_eq_true]
  simp only [same]

/-! ## The buckets of references -/

variable (source : Source)

/-- The buckets named so far, with one more reference to a name. -/
def addReference (buckets : List (String × KeyPiece)) (reference : String × KeyPiece) :
    List (String × KeyPiece) :=
  match source.aggregationKeys.get? reference.1 with
  | some sourcePiece => addKeyPiece reference.1 sourcePiece reference.2 buckets
  | none => buckets

/-- The names that the passing data of a trigger mention, each with the key piece of its datum. -/
def references (trigger : Trigger) : List (String × KeyPiece) :=
  (passingData source trigger).flatMap fun datum =>
    datum.sourceKeys.map fun name => (name, datum.keyPiece)

theorem namedBuckets_eq_foldl (trigger : Trigger) :
    namedBuckets source trigger = (references source trigger).foldl (addReference source) [] := by
  rw [namedBuckets, references, List.foldl_flatMap]
  congr 1
  funext buckets datum
  rw [List.foldl_map]
  rfl

/-- The key pieces that some references give to a name. -/
def piecesOf (refs : List (String × KeyPiece)) (name : String) : List KeyPiece :=
  (refs.filter (·.1 = name)).map Prod.snd

/-- The bucket of a name that the source knows. -/
def bucketOf? (refs : List (String × KeyPiece)) (name : String) : Option (String × KeyPiece) :=
  (source.aggregationKeys.get? name).map fun sourcePiece =>
    (name, sourcePiece ||| combinedPieces (piecesOf refs name))

variable {source}

theorem piecesOf_concat_self (refs : List (String × KeyPiece)) (name : String) (piece : KeyPiece) :
    piecesOf (refs ++ [(name, piece)]) name = piecesOf refs name ++ [piece] := by
  simp [piecesOf]

theorem piecesOf_concat_of_ne {refs : List (String × KeyPiece)} {name other : String}
    (ne : other ≠ name) (piece : KeyPiece) :
    piecesOf (refs ++ [(name, piece)]) other = piecesOf refs other := by
  simp [piecesOf, ne.symm]

theorem piecesOf_eq_nil {refs : List (String × KeyPiece)} {name : String}
    (new : name ∉ refs.map Prod.fst) : piecesOf refs name = [] := by
  rw [piecesOf, List.map_eq_nil_iff, List.filter_eq_nil_iff]
  intro reference mem named
  exact new (List.mem_map.2 ⟨reference, mem, of_decide_eq_true named⟩)

/-- A bucket after one more reference to `name`. -/
def combineInto (name : String) (piece : KeyPiece) (bucket : String × KeyPiece) :
    String × KeyPiece :=
  if bucket.1 = name then (bucket.1, bucket.2 ||| piece) else bucket

theorem map_combineInto_of_notMem {name : String} {buckets : List (String × KeyPiece)}
    (absent : name ∉ buckets.map Prod.fst) (piece : KeyPiece) :
    buckets.map (combineInto name piece) = buckets := by
  refine (List.map_congr_left fun bucket mem => if_neg fun eq => absent ?_).trans (List.map_id _)
  exact eq ▸ List.mem_map_of_mem mem

theorem addKeyPiece_of_notMem {name : String} {buckets : List (String × KeyPiece)}
    (absent : name ∉ buckets.map Prod.fst) (sourcePiece piece : KeyPiece) :
    addKeyPiece name sourcePiece piece buckets = buckets ++ [(name, sourcePiece ||| piece)] := by
  induction buckets with
  | nil => rfl
  | cons bucket rest ih =>
    rw [List.map_cons, List.mem_cons, not_or] at absent
    rw [addKeyPiece, if_neg (Ne.symm absent.1), ih absent.2, List.cons_append]

theorem addKeyPiece_of_mem {name : String} {buckets : List (String × KeyPiece)}
    (distinct : (buckets.map Prod.fst).Nodup) (mem : name ∈ buckets.map Prod.fst)
    (sourcePiece piece : KeyPiece) :
    addKeyPiece name sourcePiece piece buckets = buckets.map (combineInto name piece) := by
  induction buckets with
  | nil => cases mem
  | cons bucket rest ih =>
    obtain ⟨fresh, distinct⟩ := List.nodup_cons.1 distinct
    rw [addKeyPiece, List.map_cons]
    by_cases found : bucket.1 = name
    · rw [if_pos found, combineInto, if_pos found, map_combineInto_of_notMem (found ▸ fresh)]
    · rw [List.map_cons, List.mem_cons] at mem
      rw [if_neg found, combineInto, if_neg found, ih distinct (mem.resolve_left (Ne.symm found))]

/-! ## The buckets of some references -/

/-- One more reference changes the bucket of its name and no other. -/
theorem bucketOf?_concat (refs : List (String × KeyPiece)) (name other : String)
    (piece : KeyPiece) :
    bucketOf? source (refs ++ [(name, piece)]) other =
      (bucketOf? source refs other).map (combineInto name piece) := by
  unfold bucketOf?
  rw [Option.map_map]
  congr 1
  funext sourcePiece
  rw [Function.comp_apply, combineInto]
  split_ifs with same
  · rw [← same, piecesOf_concat_self, combinedPieces_concat, BitVec.or_assoc]
  · rw [piecesOf_concat_of_ne same]

variable (source) in
theorem map_fst_buckets (refs : List (String × KeyPiece)) (names : List String) :
    (names.filterMap (bucketOf? source refs)).map Prod.fst =
      names.filter fun name => (source.aggregationKeys.get? name).isSome := by
  rw [List.map_filterMap, ← List.filterMap_eq_filter]
  refine List.filterMap_congr fun name _ => ?_
  cases known : source.aggregationKeys.get? name <;> simp [bucketOf?, Option.guard, known]

/-- Adding references one after the other leads to one bucket for each name that the source knows,
in the order in which the names are first mentioned. -/
theorem foldl_addReference (refs : List (String × KeyPiece)) :
    refs.foldl (addReference source) [] =
      (refs.map Prod.fst).eraseDups.filterMap (bucketOf? source refs) := by
  induction refs using List.reverseRecOn with
  | nil => rfl
  | append_singleton refs reference ih =>
    obtain ⟨name, piece⟩ := reference
    have changed (names : List String) :
        names.filterMap (bucketOf? source (refs ++ [(name, piece)])) =
          (names.filterMap (bucketOf? source refs)).map (combineInto name piece) := by
      rw [List.map_filterMap]
      exact List.filterMap_congr fun other _ => bucketOf?_concat refs name other piece
    have named := map_fst_buckets source refs (refs.map Prod.fst).eraseDups
    rw [List.foldl_append, ih, List.foldl_cons, List.foldl_nil, addReference, List.map_append,
      List.map_singleton, eraseDups_concat]
    cases known : source.aggregationKeys.get? name with
    | none =>
      have absent : name ∉ ((refs.map Prod.fst).eraseDups.filterMap
          (bucketOf? source refs)).map Prod.fst := by
        simp [named, known]
      have unknown : bucketOf? source (refs ++ [(name, piece)]) name = none := by
        rw [bucketOf?, known, Option.map_none]
      split_ifs
      · rw [changed, map_combineInto_of_notMem absent]
      · rw [List.filterMap_append, changed, map_combineInto_of_notMem absent,
          List.filterMap_cons_none unknown, List.filterMap_nil, List.append_nil]
    | some sourcePiece =>
      have mem_iff : name ∈ ((refs.map Prod.fst).eraseDups.filterMap
          (bucketOf? source refs)).map Prod.fst ↔ name ∈ refs.map Prod.fst := by
        rw [named, List.mem_filter, known, List.mem_eraseDups]
        exact and_iff_left rfl
      dsimp only
      split_ifs with mem
      · have distinct := (nodup_eraseDups (refs.map Prod.fst)).filter fun name =>
          (source.aggregationKeys.get? name).isSome
        rw [← named] at distinct
        rw [addKeyPiece_of_mem distinct (mem_iff.2 mem), changed]
      · have absent := mt mem_iff.1 mem
        have first : bucketOf? source (refs ++ [(name, piece)]) name =
            some (name, sourcePiece ||| piece) := by
          rw [bucketOf?, known, Option.map_some, piecesOf_concat_self, piecesOf_eq_nil mem]
          simp [combinedPieces]
        rw [addKeyPiece_of_notMem absent, List.filterMap_append, changed,
          map_combineInto_of_notMem absent, List.filterMap_cons_some first, List.filterMap_nil]

/-! ## What a trigger contributes -/

section

variable (source : Source) (trigger : Trigger)

/-- The names that the passing data mention, in the order in which they are first mentioned. -/
def namesInOrder : List String :=
  ((passingData source trigger).flatMap (·.sourceKeys)).eraseDups

/-- The key pieces of the passing data that mention a name. -/
def keyPiecesFor (name : String) : List KeyPiece :=
  ((passingData source trigger).filter (name ∈ ·.sourceKeys)).map (·.keyPiece)

/-- What a trigger contributes under a name: nothing unless the source knows the name and the
trigger gives it a positive value. -/
def contributionFor (name : String) : Option Contribution :=
  match source.aggregationKeys.get? name, trigger.aggregateValues.get? name with
  | some sourcePiece, some value =>
    if 0 < value then
      some { bucket := sourcePiece ||| combinedPieces (keyPiecesFor source trigger name), value }
    else none
  | _, _ => none

end

theorem mem_keyPiecesFor {trigger : Trigger} {name : String} {piece : KeyPiece} :
    piece ∈ keyPiecesFor source trigger name ↔
      ∃ datum ∈ trigger.aggregatableData,
        clausesPass source.matchingData datum.filters datum.notFilters = true ∧
          name ∈ datum.sourceKeys ∧ datum.keyPiece = piece := by
  simp only [keyPiecesFor, passingData, List.mem_map, List.mem_filter, decide_eq_true_eq, and_assoc]

theorem mem_namesInOrder {trigger : Trigger} {name : String} :
    name ∈ namesInOrder source trigger ↔ ∃ piece, piece ∈ keyPiecesFor source trigger name := by
  simp only [namesInOrder, List.mem_eraseDups, List.mem_flatMap, keyPiecesFor, List.mem_map,
    List.mem_filter, decide_eq_true_eq]
  constructor
  · rintro ⟨datum, passing, mem⟩
    exact ⟨_, datum, ⟨passing, mem⟩, rfl⟩
  · rintro ⟨_, datum, ⟨passing, mem⟩, -⟩
    exact ⟨datum, passing, mem⟩

theorem map_fst_references (trigger : Trigger) :
    (references source trigger).map Prod.fst =
      (passingData source trigger).flatMap (·.sourceKeys) := by
  rw [references, List.map_flatMap]
  congr 1
  funext datum
  rw [List.map_map]
  exact List.map_id _

/-- A datum that mentions a name twice gives it the same key piece twice. -/
theorem mem_piecesOf_references {trigger : Trigger} {name : String} {piece : KeyPiece} :
    piece ∈ piecesOf (references source trigger) name ↔
      piece ∈ keyPiecesFor source trigger name := by
  simp only [piecesOf, references, keyPiecesFor, List.mem_map, List.mem_filter, List.mem_flatMap,
    decide_eq_true_eq, Prod.exists, Prod.mk.injEq]
  constructor
  · rintro ⟨_, _, ⟨⟨datum, passing, _, mem, rfl, rfl⟩, rfl⟩, rfl⟩
    exact ⟨datum, ⟨passing, mem⟩, rfl⟩
  · rintro ⟨datum, ⟨passing, mem⟩, rfl⟩
    exact ⟨name, _, ⟨⟨datum, passing, name, mem, rfl, rfl⟩, rfl⟩, rfl⟩

/-- The contributions, name by name. -/
theorem contributions_eq_filterMap (source : Source) (trigger : Trigger) :
    contributions source trigger =
      (namesInOrder source trigger).filterMap (contributionFor source trigger) := by
  rw [contributions, namedBuckets_eq_foldl, foldl_addReference, map_fst_references, namesInOrder,
    List.filterMap_filterMap]
  refine List.filterMap_congr fun name _ => ?_
  rw [bucketOf?, combinedPieces_congr fun _ => mem_piecesOf_references, contributionFor]
  cases source.aggregationKeys.get? name with
  | none => rfl
  | some sourcePiece =>
    rw [Option.map_some, Option.bind_some]
    dsimp only
    cases trigger.aggregateValues.get? name <;> rfl

/-- Triggers with the same values and the same key pieces for each name contribute the same, in some
order. -/
theorem contributions_perm {trigger trigger' : Trigger}
    (values : trigger.aggregateValues = trigger'.aggregateValues)
    (pieces : ∀ name piece, piece ∈ keyPiecesFor source trigger name ↔
      piece ∈ keyPiecesFor source trigger' name) :
    (contributions source trigger).Perm (contributions source trigger') := by
  have names : (namesInOrder source trigger).Perm (namesInOrder source trigger') := by
    refine (List.perm_ext_iff_of_nodup (nodup_eraseDups _) (nodup_eraseDups _)).2 fun name => ?_
    rw [← namesInOrder, ← namesInOrder, mem_namesInOrder, mem_namesInOrder]
    exact exists_congr (pieces name)
  have each : contributionFor source trigger = contributionFor source trigger' := by
    funext name
    rw [contributionFor, contributionFor, values, combinedPieces_congr (pieces name)]
  rw [contributions_eq_filterMap, contributions_eq_filterMap, each]
  exact names.filterMap _

/-! ## The total -/

theorem totalValue_eq_sum (contributions : List Contribution) :
    totalValue contributions = (contributions.map (·.value.toNat)).sum := by
  induction contributions with
  | nil => rfl
  | cons c rest ih => rw [List.map_cons, List.sum_cons, ← ih]; rfl

/-- What is contributed under a name is the value given for it. -/
theorem value_of_contributionFor {trigger : Trigger} {name : String} {c : Contribution}
    (h : contributionFor source trigger name = some c) :
    trigger.aggregateValues.get? name = some c.value := by
  unfold contributionFor at h
  split at h
  · next sourcePiece value known given =>
    split_ifs at h
    cases h
    exact given
  · cases h

/-- All contributions together are no more than the values that the trigger gives. -/
theorem totalValue_le (source : Source) (trigger : Trigger) :
    totalValue (contributions source trigger) ≤
      (trigger.aggregateValues.entries.map (·.2.toNat)).sum := by
  -- The entries that are used, one for each contribution.
  let used := (namesInOrder source trigger).filterMap fun name =>
    (contributionFor source trigger name).map fun c => (name, c.value)
  have distinct : used.Nodup := by
    refine (nodup_eraseDups _).filterMap fun name name' entry h h' => ?_
    obtain ⟨c, -, rfl⟩ := Option.map_eq_some_iff.1 h
    obtain ⟨c', -, eq⟩ := Option.map_eq_some_iff.1 h'
    exact (congrArg Prod.fst eq).symm
  have given : used ⊆ trigger.aggregateValues.entries := by
    intro entry mem
    obtain ⟨name, -, h⟩ := List.mem_filterMap.1 mem
    obtain ⟨c, hc, rfl⟩ := Option.map_eq_some_iff.1 h
    exact StringMap.get?_eq_some_iff.1 (value_of_contributionFor hc)
  obtain ⟨some_used, same, sub⟩ := List.subperm_of_subset distinct given
  calc totalValue (contributions source trigger)
      = (used.map (·.2.toNat)).sum := by
        rw [totalValue_eq_sum, contributions_eq_filterMap, List.map_filterMap, List.map_filterMap]
        congr 2
        funext name
        rw [Option.map_map]
        rfl
    _ = (some_used.map (·.2.toNat)).sum := (same.map _).symm.sum_nat
    _ ≤ _ := (sub.map _).sum_le_sum fun _ _ => Nat.zero_le _

/-! ## Data in another order -/

/-- Whether two data differ at most in the order of the names that they mention and in how often
they mention them. -/
def AggregatableDatum.SameNames (datum other : AggregatableDatum) : Prop :=
  datum.keyPiece = other.keyPiece ∧ datum.filters = other.filters ∧
    datum.notFilters = other.notFilters ∧ ∀ name, name ∈ datum.sourceKeys ↔ name ∈ other.sourceKeys

theorem mem_keyPiecesFor_of_sameNames {trigger trigger' : Trigger} {name : String}
    {piece : KeyPiece}
    (found : ∀ datum ∈ trigger.aggregatableData, ∃ other ∈ trigger'.aggregatableData,
      datum.SameNames other)
    (h : piece ∈ keyPiecesFor source trigger name) : piece ∈ keyPiecesFor source trigger' name := by
  obtain ⟨datum, mem, pass, mentioned, rfl⟩ := mem_keyPiecesFor.1 h
  obtain ⟨other, mem', samePiece, sameFilters, sameNotFilters, sameNames⟩ := found datum mem
  rw [sameFilters, sameNotFilters] at pass
  exact mem_keyPiecesFor.2 ⟨other, mem', pass, (sameNames name).1 mentioned, samePiece.symm⟩

/-- A trigger contributes once under each name that its passing data mention, in the order in which
they first do, if the source knows the name and the trigger gives it a positive value: that value,
for the key piece of the source combined with those of all passing data that mention the name. Data
in another order, data given again and names mentioned again change at most the order, and the total
is no more than that of the values given. -/
theorem contributions_exact (source : Source) (trigger : Trigger) :
    (namesInOrder source trigger).Nodup ∧
      contributions source trigger =
        (namesInOrder source trigger).filterMap (contributionFor source trigger) ∧
      (∀ data : List AggregatableDatum,
        (∀ datum ∈ data, ∃ other ∈ trigger.aggregatableData, datum.SameNames other) →
        (∀ other ∈ trigger.aggregatableData, ∃ datum ∈ data, other.SameNames datum) →
          (contributions source { trigger with aggregatableData := data }).Perm
            (contributions source trigger)) ∧
      totalValue (contributions source trigger) ≤
        (trigger.aggregateValues.entries.map (·.2.toNat)).sum := by
  refine ⟨nodup_eraseDups _, contributions_eq_filterMap source trigger, ?_,
    totalValue_le source trigger⟩
  intro data covered covers
  exact contributions_perm rfl fun name piece =>
    ⟨mem_keyPiecesFor_of_sameNames covered, mem_keyPiecesFor_of_sameNames covers⟩

/-- The sample source with two aggregation keys. -/
def sampleKeys : Source :=
  { Sample.source with
    aggregationKeys := StringMap.ofList [("campaign", 0x159#128), ("geo", 0x5#128)] }

/-- A datum that names both keys of the source, one that names a key twice and one the source does
not know, and one that no source passes. -/
def sampleData : List AggregatableDatum :=
  [⟨0x400#128, ["campaign", "geo"], .unconstrained, .unconstrained⟩,
    ⟨0x8#128, ["geo", "other", "geo"], .unconstrained, .unconstrained⟩,
    ⟨0x10#128, ["campaign"], .malformed, .unconstrained⟩]

/-- The sample trigger with these data, a value for each key of the source and one for another. -/
def sampleContributing : Trigger :=
  { Sample.trigger with
    aggregatableData := sampleData
    aggregateValues := StringMap.ofList [("campaign", 32768), ("geo", 1664), ("other", 5)] }

/-- In the reverse order, the trigger contributes to the same buckets, the second one first. -/
theorem contributions_exact_sample :
    contributions sampleKeys sampleContributing =
        [⟨0x559#128, 32768⟩, ⟨0x40d#128, 1664⟩] ∧
      contributions sampleKeys { sampleContributing with aggregatableData := sampleData.reverse } =
        [⟨0x40d#128, 1664⟩, ⟨0x559#128, 32768⟩] ∧
      (contributions sampleKeys
          { sampleContributing with aggregatableData := sampleData.reverse }).Perm
        (contributions sampleKeys sampleContributing) := by
  obtain ⟨-, -, reordered, -⟩ := contributions_exact sampleKeys sampleContributing
  have same (datum : AggregatableDatum) : datum.SameNames datum :=
    ⟨rfl, rfl, rfl, fun _ => Iff.rfl⟩
  refine ⟨by cbv, by cbv, reordered _ ?_ ?_⟩
  · exact fun datum mem => ⟨datum, List.mem_reverse.1 mem, same datum⟩
  · exact fun datum mem => ⟨datum, List.mem_reverse.2 mem, same datum⟩

end AttributionReporting
