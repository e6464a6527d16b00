import AttributionReporting.Proofs.Flexible.Matching
import AttributionReporting.Proofs.Flexible.Ranking
import Mathlib.Data.List.Nodup

/-!
# Reports in step with the history

The standing reports of a source are in step with its history when reconciling them would change
nothing (`ReportSpec.InStep`). They stay in step as time goes by and as they are delivered
(`ReportSpec.InStep.later`, `ReportSpec.InStep.map`). A report that is locked in the meantime keeps
its slot occupied and its bucket covered; the others are still due when they were, because only a
report whose time has passed moves to a later window; and what was not wanted for lack of room still
finds none, since locking a report makes no room.
-/

open scoped List

namespace AttributionReporting

/-! ## Slots that may change -/

section

variable {existing : List EventReport} {now : Int}

theorem mem_standing_slots_iff (now : Int) {x : (UInt64 × Option UInt64) × Int} :
    x ∈ (existing.filter (·.isStanding)).map EventReport.slot ↔
      x ∈ (lockedReports existing now).map EventReport.slot ∨
        x ∈ (changeableReports existing now).map EventReport.slot := by
  rw [← ((locked_append_changeable_perm existing now).map EventReport.slot).mem_iff,
    List.map_append, List.mem_append]

theorem fst_mem_of_mem_slots {reports : List EventReport} {x : (UInt64 × Option UInt64) × Int}
    (h : x ∈ reports.map EventReport.slot) : x.1 ∈ reports.map EventReport.key := by
  obtain ⟨r, hr, rfl⟩ := List.mem_map.1 h
  exact List.mem_map_of_mem hr

theorem nodup_slots {reports : List EventReport} (keys : (reports.map EventReport.key).Nodup) :
    (reports.map EventReport.slot).Nodup := by
  have fst : reports.map EventReport.key = (reports.map EventReport.slot).map Prod.fst := by
    rw [List.map_map]
    rfl
  rw [fst] at keys
  exact keys.of_map

/-- When no two standing reports share their bucket, those that may change are the ones whose bucket
no locked report covers. -/
theorem mem_changeable_slots_iff
    (keys : ((existing.filter (·.isStanding)).map EventReport.key).Nodup)
    {x : (UInt64 × Option UInt64) × Int} :
    x ∈ (changeableReports existing now).map EventReport.slot ↔
      x ∈ (existing.filter (·.isStanding)).map EventReport.slot ∧
        x.1 ∉ (lockedReports existing now).map EventReport.key := by
  have all := ((locked_append_changeable_perm existing now).map EventReport.key).symm.nodup keys
  rw [List.map_append, List.nodup_append] at all
  rw [mem_standing_slots_iff now]
  constructor
  · intro h
    exact ⟨.inr h, fun covered => all.2.2 x.1 covered x.1 (fst_mem_of_mem_slots h) rfl⟩
  · rintro ⟨locked | changeable, uncovered⟩
    · exact absurd (fst_mem_of_mem_slots locked) uncovered
    · exact changeable

theorem nodup_changeable_slots
    (keys : ((existing.filter (·.isStanding)).map EventReport.key).Nodup) :
    ((changeableReports existing now).map EventReport.slot).Nodup := by
  unfold changeableReports
  rw [← List.filter_filter]
  exact nodup_slots (keys.sublist (List.filter_sublist.map _))

theorem le_of_mem_changeable_slots {x : (UInt64 × Option UInt64) × Int}
    (h : x ∈ (changeableReports existing now).map EventReport.slot) : now ≤ x.2 := by
  obtain ⟨r, hr, rfl⟩ := List.mem_map.1 h
  have free := (mem_changeableReports.1 hr).2.2
  unfold EventReport.isLocked at free
  simp only [Bool.or_eq_false_iff, decide_eq_false_iff_not, not_lt] at free
  exact free.2

/-- A standing report whose time has passed is locked. -/
theorem fst_mem_locked_of_lt {x : (UInt64 × Option UInt64) × Int}
    (h : x ∈ (existing.filter (·.isStanding)).map EventReport.slot) (past : x.2 < now) :
    x.1 ∈ (lockedReports existing now).map EventReport.key := by
  rcases (mem_standing_slots_iff now).1 h with locked | changeable
  · exact fst_mem_of_mem_slots locked
  · have := le_of_mem_changeable_slots changeable
    omega

end

/-! ## Wanted slots -/

namespace Credit

/-- What the report of a credit stands for, asked at `now`. -/
def slot (eventTime delay now : Int) (c : Credit) : (UInt64 × Option UInt64) × Int :=
  (c.key, c.due eventTime delay now)

/-- Whether a credit is not covered by the buckets in `covered` and not due in the past. -/
def isOpen (eventTime delay now : Int) (covered : List (UInt64 × Option UInt64)) (c : Credit) :
    Bool :=
  decide (c.key ∉ covered ∧ now ≤ c.due eventTime delay now)

end Credit

namespace ReportSpec

variable {spec : ReportSpec} {source : Source} {existing : List EventReport} {ctx : ReportContext}

/-- The reports that the standing ones that may change should be. -/
def wanted (spec : ReportSpec) (source : Source) (existing : List EventReport)
    (ctx : ReportContext) : List EventReport :=
  openReports spec.maxReports (spec.desired source ctx) (lockedReports existing ctx.now) ctx.now

/-- Reconciling the reports of a source with its history would change nothing. -/
def InStep (spec : ReportSpec) (source : Source) (existing : List EventReport)
    (ctx : ReportContext) : Prop :=
  reconcile spec.maxReports (spec.desired source ctx) existing ctx.now = ([], [])

theorem inStep_iff :
    spec.InStep source existing ctx ↔
      ((spec.wanted source existing ctx).map EventReport.slot).Perm
        ((changeableReports existing ctx.now).map EventReport.slot) :=
  reconcile_eq_nil_iff

/-- The wanted slots are those of the open credits that rank first. -/
theorem map_slot_wanted (spec : ReportSpec) (source : Source) (existing : List EventReport)
    (ctx : ReportContext) :
    (spec.wanted source existing ctx).map EventReport.slot =
      (((spec.credits source.eventTime).filter
        (Credit.isOpen source.eventTime ctx.delay ctx.now
          ((lockedReports existing ctx.now).map EventReport.key))).take
        (spec.maxReports - (lockedReports existing ctx.now).length)).map
          (Credit.slot source.eventTime ctx.delay ctx.now) := by
  have uncovered : uncoveredReports (spec.desired source ctx) (lockedReports existing ctx.now)
      ctx.now = ((spec.credits source.eventTime).filter
        (Credit.isOpen source.eventTime ctx.delay ctx.now
          ((lockedReports existing ctx.now).map EventReport.key))).map
            (Credit.report spec source ctx) := by
    unfold uncoveredReports
    rw [desired_eq_map, List.filter_map]
    congr 1
    apply List.filter_congr
    intro c _
    rw [Bool.eq_iff_iff, Function.comp_apply, Credit.isOpen, decide_eq_true_eq, Bool.and_eq_true,
      Bool.not_eq_true', List.any_eq_false, decide_eq_true_eq, List.mem_map]
    refine and_congr ?_ Iff.rfl
    simp only [EventReport.sameBucket_iff, not_exists, not_and]
    rfl
  rw [wanted, openReports_eq_take, uncovered, ← List.map_take, List.map_map]
  rfl

end ReportSpec

/-! ## As time goes by -/

namespace Credit

variable {c : Credit} {eventTime delay now later : Int}
  {covered covered' : List (UInt64 × Option UInt64)}

/-- A credit that is open later was open before. -/
theorem isOpen_of_later (le : now ≤ later) (more : ∀ key ∈ covered, key ∈ covered')
    (h : c.isOpen eventTime delay later covered' = true) :
    c.isOpen eventTime delay now covered = true := by
  unfold isOpen at h ⊢
  rw [decide_eq_true_eq] at h ⊢
  refine ⟨fun old => h.1 (more c.key old), ?_⟩
  by_contra past
  have := ReportWindows.reportTime_lt_of_le le (not_le.1 past)
  unfold due at h
  omega

/-- A credit that is due before `later` only in a bucket covered by then is open exactly when its
slot is, and keeps its slot. -/
theorem isOpen_iff_of_due (le : now ≤ later)
    (overdue : c.due eventTime delay now < later → c.key ∈ covered') :
    (c.isOpen eventTime delay later covered' = true ↔
        c.key ∉ covered' ∧ later ≤ c.due eventTime delay now) ∧
      (c.isOpen eventTime delay later covered' = true →
        c.slot eventTime delay later = c.slot eventTime delay now) := by
  by_cases past : c.due eventTime delay now < later
  · have closed : ¬ c.isOpen eventTime delay later covered' = true := by
      unfold isOpen
      rw [decide_eq_true_eq]
      exact fun h => h.1 (overdue past)
    refine ⟨iff_of_false closed fun h => ?_, fun h => absurd h closed⟩
    exact h.1 (overdue past)
  · have same : c.due eventTime delay later = c.due eventTime delay now :=
      ReportWindows.reportTime_of_le le (not_lt.1 past)
    unfold isOpen slot
    rw [decide_eq_true_eq, same]
    exact ⟨Iff.rfl, fun _ => rfl⟩

end Credit

section

variable {existing existing' : List EventReport} {now later eventTime delay : Int}

/-- Of the reports that might change, those still may whose bucket is not covered by then and whose
time has not passed. -/
theorem changeable_slots_later
    (keys : ((existing.filter (·.isStanding)).map EventReport.key).Nodup)
    (standing : ((existing'.filter (·.isStanding)).map EventReport.slot).Perm
      ((existing.filter (·.isStanding)).map EventReport.slot))
    (locked : ∀ key ∈ (lockedReports existing now).map EventReport.key,
      key ∈ (lockedReports existing' later).map EventReport.key) :
    ((changeableReports existing' later).map EventReport.slot).Perm
      (((changeableReports existing now).map EventReport.slot).filter fun x =>
        decide (x.1 ∉ (lockedReports existing' later).map EventReport.key ∧ later ≤ x.2)) := by
  have keys' : ((existing'.filter (·.isStanding)).map EventReport.key).Nodup := by
    have perm := standing.map Prod.fst
    rw [List.map_map, List.map_map] at perm
    exact perm.symm.nodup keys
  refine (List.perm_ext_iff_of_nodup (nodup_changeable_slots keys')
    ((nodup_changeable_slots keys).filter _)).2 fun x => ?_
  rw [List.mem_filter, decide_eq_true_eq, mem_changeable_slots_iff keys, ← standing.mem_iff]
  constructor
  · intro h
    obtain ⟨stands, uncovered⟩ := (mem_changeable_slots_iff keys').1 h
    exact ⟨⟨stands, fun old => uncovered (locked x.1 old)⟩, uncovered, le_of_mem_changeable_slots h⟩
  · rintro ⟨⟨stands, -⟩, uncovered, -⟩
    exact (mem_changeable_slots_iff keys').2 ⟨stands, uncovered⟩

/-- Credits that fill the slots that might change fill, as far as they are still open, those that
still may. -/
theorem taken_slots_later (le : now ≤ later)
    (keys : ((existing.filter (·.isStanding)).map EventReport.key).Nodup)
    (standing : ((existing'.filter (·.isStanding)).map EventReport.slot).Perm
      ((existing.filter (·.isStanding)).map EventReport.slot))
    (locked : ∀ key ∈ (lockedReports existing now).map EventReport.key,
      key ∈ (lockedReports existing' later).map EventReport.key)
    {taken : List Credit}
    (fill : (taken.map (Credit.slot eventTime delay now)).Perm
      ((changeableReports existing now).map EventReport.slot)) :
    ((taken.filter (Credit.isOpen eventTime delay later
      ((lockedReports existing' later).map EventReport.key))).map
        (Credit.slot eventTime delay later)).Perm
          ((changeableReports existing' later).map EventReport.slot) := by
  have overdue : ∀ c ∈ taken, c.due eventTime delay now < later →
      c.key ∈ (lockedReports existing' later).map EventReport.key := by
    intro c hc past
    have mem := fill.mem_iff.1 (List.mem_map_of_mem hc)
    have stands := standing.mem_iff.2 ((mem_standing_slots_iff now).2 (.inr mem))
    exact fst_mem_locked_of_lt stands past
  have sameOpen : taken.filter (Credit.isOpen eventTime delay later
      ((lockedReports existing' later).map EventReport.key)) =
        taken.filter ((fun x => decide (x.1 ∉ (lockedReports existing' later).map EventReport.key ∧
          later ≤ x.2)) ∘ Credit.slot eventTime delay now) := by
    apply List.filter_congr
    intro c hc
    rw [Bool.eq_iff_iff, (Credit.isOpen_iff_of_due le (overdue c hc)).1, Function.comp_apply,
      decide_eq_true_eq]
    rfl
  have sameSlots : (taken.filter (Credit.isOpen eventTime delay later
      ((lockedReports existing' later).map EventReport.key))).map
        (Credit.slot eventTime delay later) =
      (taken.filter (Credit.isOpen eventTime delay later
        ((lockedReports existing' later).map EventReport.key))).map
          (Credit.slot eventTime delay now) := by
    apply List.map_congr_left
    intro c hc
    obtain ⟨mem, still⟩ := List.mem_filter.1 hc
    exact (Credit.isOpen_iff_of_due le (overdue c mem)).2 still
  rw [sameSlots, sameOpen, ← List.filter_map]
  exact (fill.filter _).trans (changeable_slots_later keys standing locked).symm

theorem take_append_of_full {α : Type} {a b : List α} {n : Nat} (le : a.length ≤ n)
    (full : a.length = n ∨ b = []) : (a ++ b).take n = a := by
  rcases full with eq | rfl
  · exact List.take_left' eq
  · rw [List.append_nil, List.take_of_length_le le]

/-- What is open later was open before, whether or not there was room for it. -/
theorem filter_isOpen_later (le : now ≤ later) {covered covered' : List (UInt64 × Option UInt64)}
    (more : ∀ key ∈ covered, key ∈ covered') (credits : List Credit) (room : Nat) :
    credits.filter (Credit.isOpen eventTime delay later covered') =
      ((credits.filter (Credit.isOpen eventTime delay now covered)).take room).filter
          (Credit.isOpen eventTime delay later covered') ++
        ((credits.filter (Credit.isOpen eventTime delay now covered)).drop room).filter
          (Credit.isOpen eventTime delay later covered') := by
  rw [← List.filter_append, List.take_append_drop, List.filter_filter]
  apply List.filter_congr
  intro c _
  by_cases still : c.isOpen eventTime delay later covered' = true
  · rw [still, Credit.isOpen_of_later le more still, Bool.and_self]
  · rw [Bool.not_eq_true] at still
    rw [still, Bool.false_and]

end

/-- What stands stays in step with the history at later times, when the standing reports fill the
same slots and every bucket that was locked still is. -/
theorem ReportSpec.InStep.later {spec : ReportSpec} {source : Source}
    {existing existing' : List EventReport} {ctx later : ReportContext}
    (inStep : spec.InStep source existing ctx) (sameDelay : later.delay = ctx.delay)
    (le : ctx.now ≤ later.now)
    (keys : ((existing.filter (·.isStanding)).map EventReport.key).Nodup)
    (standing : ((existing'.filter (·.isStanding)).map EventReport.slot).Perm
      ((existing.filter (·.isStanding)).map EventReport.slot))
    (locked : ∀ key ∈ (lockedReports existing ctx.now).map EventReport.key,
      key ∈ (lockedReports existing' later.now).map EventReport.key) :
    spec.InStep source existing' later := by
  rw [inStep_iff, map_slot_wanted] at inStep ⊢
  rw [sameDelay, filter_isOpen_later le locked (spec.credits source.eventTime)
    (spec.maxReports - (lockedReports existing ctx.now).length)]
  have kept := taken_slots_later le keys standing locked inStep
  suffices noRoom : List.take _ (_ ++ _) = _ by rwa [noRoom]
  have before := (locked_append_changeable_perm existing ctx.now).length_eq
  have after := (locked_append_changeable_perm existing' later.now).length_eq
  have same := standing.length_eq
  have fewer := (changeable_slots_later keys standing locked).length_eq.le.trans
    (List.length_filter_le _ _)
  have filled := inStep.length_eq
  have keptLength := kept.length_eq
  simp only [List.length_map, List.length_append, List.length_take] at *
  refine take_append_of_full (by omega) ?_
  by_cases room : ((spec.credits source.eventTime).filter
    (Credit.isOpen source.eventTime ctx.delay ctx.now
      ((lockedReports existing ctx.now).map EventReport.key))).length ≤
        spec.maxReports - (lockedReports existing ctx.now).length
  · right
    rw [List.drop_eq_nil_of_le room, List.filter_nil]
  · left
    omega

theorem EventReport.isLocked_of_le {now later : Int} (le : now ≤ later) {r : EventReport}
    (h : r.isLocked now = true) : r.isLocked later = true := by
  unfold isLocked at h ⊢
  rw [Bool.or_eq_true, decide_eq_true_eq] at h ⊢
  exact h.imp_right fun past => by omega

/-- Reports stay in step at later times when each of them keeps its slot, stands as before and stays
locked if it was. -/
theorem ReportSpec.InStep.map {spec : ReportSpec} {source : Source} {existing : List EventReport}
    {ctx later : ReportContext} {f : EventReport → EventReport}
    (inStep : spec.InStep source existing ctx) (sameDelay : later.delay = ctx.delay)
    (le : ctx.now ≤ later.now)
    (keys : ((existing.filter (·.isStanding)).map EventReport.key).Nodup)
    (slot : ∀ r, (f r).slot = r.slot) (stands : ∀ r, (f r).isStanding = r.isStanding)
    (locks : ∀ r, r.isLocked later.now = true → (f r).isLocked later.now = true) :
    spec.InStep source (existing.map f) later := by
  have slots : EventReport.slot ∘ f = EventReport.slot := funext slot
  have standing : (fun r : EventReport => r.isStanding) ∘ f = fun r => r.isStanding := funext stands
  refine inStep.later sameDelay le keys ?_ fun key hk => ?_
  · rw [List.filter_map, standing, List.map_map, slots]
  · obtain ⟨r, hr, rfl⟩ := List.mem_map.1 hk
    obtain ⟨mem, stood, locked⟩ := mem_lockedReports.1 hr
    refine List.mem_map.2 ⟨f r, mem_lockedReports.2 ⟨List.mem_map_of_mem mem, ?_, ?_⟩, ?_⟩
    · rw [stands, stood]
    · exact locks r (EventReport.isLocked_of_le le locked)
    · exact congrArg Prod.fst (slot r)

end AttributionReporting
