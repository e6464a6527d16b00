import AttributionReporting.EventReport.Standard
import AttributionReporting.Proofs.Cells
import AttributionReporting.Sample
import Mathlib.Data.Int.Order.Basic
import Mathlib.Order.Bounds.Basic

/-!
# When a plain source reports

The report about a trigger is due the delay after the end of a window: of the first early window, in
the order in which the limits give them, that closes after the trigger and before the time for event
reports is over, or else at the end of that time. The limits need not give the windows in any
particular order. A later trigger is reported no earlier all the same (`firstEndAfter_mono`), and
when the windows do ascend, the end is the least that is still ahead (`firstEndAfter_le`).
`standardReportTime64` is what 64 bits compute, which is the same as long as they hold every sum
that is formed on the way (`standardReportTime64_eq`).
-/

namespace AttributionReporting

/-! ## The first end after a time -/

/-- The first of some ends that lies after `time`, or else `last`. -/
def firstEndAfter (ends : List Int) (last time : Int) : Int :=
  (ends.find? fun windowEnd => decide (time < windowEnd)).getD last

section

variable {ends : List Int} {last time time' : Int}

@[simp]
theorem firstEndAfter_nil : firstEndAfter [] last time = last := rfl

theorem firstEndAfter_cons (windowEnd : Int) :
    firstEndAfter (windowEnd :: ends) last time =
      if time < windowEnd then windowEnd else firstEndAfter ends last time := by
  unfold firstEndAfter
  by_cases h : time < windowEnd <;> simp [h]

theorem firstEndAfter_cases (ends : List Int) (last time : Int) :
    firstEndAfter ends last time ∈ ends ∧ time < firstEndAfter ends last time ∨
      (∀ windowEnd ∈ ends, windowEnd ≤ time) ∧ firstEndAfter ends last time = last := by
  induction ends with
  | nil => simp
  | cons first rest ih =>
    rw [firstEndAfter_cons]
    split
    · next isOpen => exact .inl ⟨List.mem_cons_self, isOpen⟩
    · next closed =>
      rcases ih with ⟨mem, after⟩ | ⟨passed, eq⟩
      · exact .inl ⟨List.mem_cons_of_mem first mem, after⟩
      · exact .inr ⟨List.forall_mem_cons.2 ⟨by omega, passed⟩, eq⟩

theorem le_firstEndAfter (ends : List Int) (inTime : time ≤ last) :
    time ≤ firstEndAfter ends last time := by
  rcases firstEndAfter_cases ends last time with ⟨-, after⟩ | ⟨-, eq⟩ <;> omega

theorem firstEndAfter_le_last (time : Int) (inside : ∀ windowEnd ∈ ends, windowEnd ≤ last) :
    firstEndAfter ends last time ≤ last := by
  rcases firstEndAfter_cases ends last time with ⟨mem, -⟩ | ⟨-, eq⟩
  · exact inside _ mem
  · omega

/-- However the ends are ordered, a later time does not lead to an earlier one. -/
theorem firstEndAfter_mono (ends : List Int) (later : time ≤ time') (inTime : time' ≤ last) :
    firstEndAfter ends last time ≤ firstEndAfter ends last time' := by
  induction ends with
  | nil => simp
  | cons first rest ih =>
    rw [firstEndAfter_cons, firstEndAfter_cons]
    by_cases early : time < first
    · rw [if_pos early]
      split
      · exact le_refl first
      · -- The later time has passed this end, and what it finds lies ahead of it.
        have ahead := le_firstEndAfter rest inTime
        omega
    · have late : ¬ time' < first := by omega
      rw [if_neg early, if_neg late]
      exact ih

theorem firstEndAfter_le (ascending : ends.Pairwise (· ≤ ·)) {windowEnd : Int}
    (mem : windowEnd ∈ ends) (after : time < windowEnd) :
    firstEndAfter ends last time ≤ windowEnd := by
  unfold firstEndAfter
  cases find : ends.find? fun windowEnd => decide (time < windowEnd) with
  | none => exact absurd (decide_eq_true after) (List.find?_eq_none.1 find windowEnd mem)
  | some first => exact (isLeast_of_find?_eq_some ascending find).2 ⟨mem, decide_eq_true after⟩

end

/-! ## Report times -/

section

variable (source : Source) (type : DestinationType) (limits : Limits)

/-- The ends of the early windows that close before the time for event reports is over. -/
def earlyEnds : List Int :=
  ((limits.earlyWindows source type).map (source.eventTime + ·)).filter
    (· < source.eventReportWindow)

/-- Whether an early window is open at `time` and closes at `windowEnd`, before the time for event
reports is over. -/
def ClosesEarly (time windowEnd : Int) : Prop :=
  ∃ window ∈ limits.earlyWindows source type, windowEnd = source.eventTime + window ∧
    time < windowEnd ∧ windowEnd < source.eventReportWindow

variable {source type limits} {time due : Int}

theorem mem_earlyEnds {windowEnd : Int} :
    windowEnd ∈ earlyEnds source type limits ↔
      (∃ window ∈ limits.earlyWindows source type, source.eventTime + window = windowEnd) ∧
        windowEnd < source.eventReportWindow := by
  simp [earlyEnds]

theorem closesEarly_iff {windowEnd : Int} :
    ClosesEarly source type limits time windowEnd ↔
      windowEnd ∈ earlyEnds source type limits ∧ time < windowEnd := by
  rw [mem_earlyEnds]
  constructor
  · rintro ⟨window, mem, eq, after, inside⟩
    exact ⟨⟨⟨window, mem, eq.symm⟩, inside⟩, after⟩
  · rintro ⟨⟨⟨window, mem, eq⟩, inside⟩, after⟩
    exact ⟨window, mem, eq.symm, after, inside⟩

theorem earlyEnds_ascending (ascending : (limits.earlyWindows source type).Pairwise (· ≤ ·)) :
    (earlyEnds source type limits).Pairwise (· ≤ ·) := by
  apply List.Pairwise.filter
  exact List.pairwise_map.2 (ascending.imp fun le => by omega)

theorem standardReportTime_eq_some_iff :
    standardReportTime source time type limits = some due ↔
      time ≤ source.eventReportWindow ∧
        firstEndAfter (earlyEnds source type limits) source.eventReportWindow time +
          limits.eventReportDelay = due := by
  have found : (earlyEnds source type limits).find? (fun windowEnd => decide (time < windowEnd)) =
      ((limits.earlyWindows source type).map (source.eventTime + ·)).find? fun windowEnd =>
        decide (windowEnd < source.eventReportWindow ∧ time < windowEnd) := by
    simp [earlyEnds, List.find?_filter]
  unfold standardReportTime firstEndAfter
  rw [found]
  by_cases closed : source.eventReportWindow < time
  · simp [closed]
  · simp [closed, not_lt.1 closed]

/-- No report is due before the delay after its trigger has passed. -/
theorem time_le_of_standardReportTime
    (h : standardReportTime source time type limits = some due) :
    time ≤ due - limits.eventReportDelay := by
  obtain ⟨inTime, rfl⟩ := standardReportTime_eq_some_iff.1 h
  have ahead := le_firstEndAfter (earlyEnds source type limits) inTime
  omega

theorem standardReportTime_le
    (h : standardReportTime source time type limits = some due) :
    due ≤ source.eventReportWindow + limits.eventReportDelay := by
  obtain ⟨-, rfl⟩ := standardReportTime_eq_some_iff.1 h
  have inside : ∀ windowEnd ∈ earlyEnds source type limits, windowEnd ≤ source.eventReportWindow :=
    fun windowEnd mem => (mem_earlyEnds.1 mem).2.le
  have notLate := firstEndAfter_le_last time inside
  omega

theorem standardReportTime_mono {time' due' : Int} (later : time ≤ time')
    (h : standardReportTime source time type limits = some due)
    (h' : standardReportTime source time' type limits = some due') : due ≤ due' := by
  obtain ⟨-, rfl⟩ := standardReportTime_eq_some_iff.1 h
  obtain ⟨inTime, rfl⟩ := standardReportTime_eq_some_iff.1 h'
  have mono := firstEndAfter_mono (earlyEnds source type limits) later inTime
  omega

theorem isLeast_of_standardReportTime
    (ascending : (limits.earlyWindows source type).Pairwise (· ≤ ·))
    (h : standardReportTime source time type limits = some due) :
    IsLeast {windowEnd | ClosesEarly source type limits time windowEnd}
        (due - limits.eventReportDelay) ∨
      (∀ windowEnd, ¬ ClosesEarly source type limits time windowEnd) ∧
        due - limits.eventReportDelay = source.eventReportWindow := by
  obtain ⟨-, rfl⟩ := standardReportTime_eq_some_iff.1 h
  rw [Int.add_sub_cancel]
  simp only [closesEarly_iff]
  rcases firstEndAfter_cases (earlyEnds source type limits) source.eventReportWindow time with
    found | ⟨passed, eq⟩
  · refine .inl ⟨found, ?_⟩
    rintro windowEnd ⟨mem, after⟩
    exact firstEndAfter_le (earlyEnds_ascending ascending) mem after
  · refine .inr ⟨?_, eq⟩
    rintro windowEnd ⟨mem, after⟩
    have := passed windowEnd mem
    omega

end

/-! ## In 64 bits -/

/-- When the report for a trigger at `time` is due, with every sum wrapped. -/
def standardReportTime64 (source : Source) (time : Int) (type : DestinationType)
    (limits : Limits) : Option Int :=
  if source.eventReportWindow < time then none
  else
    let early := (limits.earlyWindows source type).map fun window =>
      Time.wrap (source.eventTime + window)
    let isOpen (windowEnd : Int) : Bool :=
      decide (windowEnd < source.eventReportWindow ∧ time < windowEnd)
    let windowEnd := (early.find? isOpen).getD source.eventReportWindow
    some (Time.wrap (windowEnd + limits.eventReportDelay))

/-- Whether 64 bits hold the ends of early windows up to the first that is open at `time`. -/
def EarlyEndsFit (source : Source) (time : Int) : List Int → Prop
  | [] => True
  | window :: rest =>
    Time.Fits (source.eventTime + window) ∧
      (¬ (source.eventTime + window < source.eventReportWindow ∧
          time < source.eventTime + window) →
        EarlyEndsFit source time rest)

instance decidableEarlyEndsFit (source : Source) (time : Int) :
    (windows : List Int) → Decidable (EarlyEndsFit source time windows)
  | [] => isTrue trivial
  | _ :: rest =>
    have := decidableEarlyEndsFit source time rest
    inferInstanceAs (Decidable (_ ∧ (_ → _)))

/-- Whether 64 bits hold every sum that `standardReportTime` forms. -/
def StandardReportTimeFits (source : Source) (time : Int) (type : DestinationType)
    (limits : Limits) : Prop :=
  time ≤ source.eventReportWindow →
    EarlyEndsFit source time (limits.earlyWindows source type) ∧
      ∀ due ∈ standardReportTime source time type limits, Time.Fits due

instance (source : Source) (time : Int) (type : DestinationType) (limits : Limits) :
    Decidable (StandardReportTimeFits source time type limits) :=
  inferInstanceAs (Decidable (_ → _ ∧ ∀ due ∈ _, _))

section

variable {source : Source} {type : DestinationType} {limits : Limits} {time : Int}

theorem find?_map_wrap {windows : List Int} (fits : EarlyEndsFit source time windows) :
    (windows.map fun window => Time.wrap (source.eventTime + window)).find? (fun windowEnd =>
        decide (windowEnd < source.eventReportWindow ∧ time < windowEnd)) =
      (windows.map (source.eventTime + ·)).find? fun windowEnd =>
        decide (windowEnd < source.eventReportWindow ∧ time < windowEnd) := by
  induction windows with
  | nil => rfl
  | cons window rest ih =>
    obtain ⟨first, rest_fits⟩ := fits
    rw [List.map_cons, List.map_cons, List.find?_cons, List.find?_cons, Time.wrap_of_fits first]
    split
    · rfl
    · next closed => exact ih (rest_fits (of_decide_eq_false closed))

theorem isSome_standardReportTime64 :
    (standardReportTime64 source time type limits).isSome ↔ time ≤ source.eventReportWindow := by
  unfold standardReportTime64
  split_ifs with closed
  · simpa using closed
  · simpa using closed

theorem standardReportTime64_eq (fits : StandardReportTimeFits source time type limits) :
    standardReportTime64 source time type limits = standardReportTime source time type limits := by
  unfold standardReportTime64 standardReportTime
  split_ifs with closed
  · rfl
  · obtain ⟨ends, due⟩ := fits (not_lt.1 closed)
    dsimp only
    rw [find?_map_wrap ends, Time.wrap_of_fits]
    apply due
    unfold standardReportTime
    rw [if_neg closed]
    rfl

end

/-- A trigger has a report time exactly when it comes before the time for event reports is over.
Where 64 bits hold the sums that are formed, the report is due no sooner than the delay after the
trigger and no later than the delay after that time, and for a later trigger it is due no sooner,
whatever the order of the early windows. When they ascend, it is due the delay after the first end
of an early window that is still ahead. -/
theorem standardReportTime_exact (source : Source) (type : DestinationType) (limits : Limits) :
    let due? (time : Int) : Option Int := standardReportTime64 source time type limits
    let fits (time : Int) : Prop := StandardReportTimeFits source time type limits
    (∀ time, (due? time).isSome ↔ time ≤ source.eventReportWindow) ∧
      (∀ time, fits time → due? time = standardReportTime source time type limits) ∧
      (∀ time due, fits time → due? time = some due →
        time + limits.eventReportDelay ≤ due ∧
          due ≤ source.eventReportWindow + limits.eventReportDelay) ∧
      (∀ time time' due due', fits time → fits time' → time ≤ time' →
        due? time = some due → due? time' = some due' → due ≤ due') ∧
      ((limits.earlyWindows source type).Pairwise (· ≤ ·) →
        ∀ time due, fits time → due? time = some due →
          IsLeast {windowEnd | ClosesEarly source type limits time windowEnd}
              (due - limits.eventReportDelay) ∨
            (∀ windowEnd, ¬ ClosesEarly source type limits time windowEnd) ∧
              due - limits.eventReportDelay = source.eventReportWindow) := by
  intro due? fits
  have exact_due {time : Int} (h : fits time) :
      due? time = standardReportTime source time type limits := standardReportTime64_eq h
  refine ⟨fun time => isSome_standardReportTime64, fun time => exact_due,
    fun time due h found => ?_, fun time time' due due' h h' later found found' => ?_,
    fun ascending time due h found => ?_⟩
  · rw [exact_due h] at found
    have := time_le_of_standardReportTime found
    exact ⟨by omega, standardReportTime_le found⟩
  · rw [exact_due h] at found
    rw [exact_due h'] at found'
    exact standardReportTime_mono later found found'
  · rw [exact_due h] at found
    exact isLeast_of_standardReportTime ascending found

/-- A navigation source that may be reported on for five days. -/
def sampleFiveDays : Source :=
  { Sample.source with
    type := .navigation
    eventReportWindow := Sample.source.eventTime + Time.days 5 }

/-- Early windows that end one before the other, the first of them too late for five days. -/
def sampleDescending : Limits :=
  { Limits.default with navigationEarlyWindows := [Time.days 7, Time.days 4, Time.days 2] }

/-- A report after one day is due at the end of the second day or, when the window of four days is
given first, of the fourth. Then a report after the fourth day is not due before that. -/
theorem standardReportTime_exact_sample :
    let day (n : Int) := Sample.source.eventTime + Time.days n
    let hour := Time.hours 1
    IsLeast {windowEnd | ClosesEarly sampleFiveDays .web .default (day 1) windowEnd} (day 2) ∧
      standardReportTime64 sampleFiveDays (day 1) .web .default = some (day 2 + hour) ∧
      standardReportTime64 sampleFiveDays (day 1) .web sampleDescending = some (day 4 + hour) ∧
      standardReportTime64 sampleFiveDays (day 4) .web sampleDescending = some (day 5 + hour) ∧
      day 4 + hour ≤ day 5 + hour := by
  intro day hour
  have early : standardReportTime64 sampleFiveDays (day 1) .web .default =
      some (day 2 + hour) := by
    decide
  have first : standardReportTime64 sampleFiveDays (day 1) .web sampleDescending =
      some (day 4 + hour) := by
    decide
  have last : standardReportTime64 sampleFiveDays (day 4) .web sampleDescending =
      some (day 5 + hour) := by
    decide
  refine ⟨?_, early, first, last, ?_⟩
  · have ascending : (Limits.default.earlyWindows sampleFiveDays .web).Pairwise (· ≤ ·) := by
      decide
    obtain ⟨-, -, -, -, least⟩ := standardReportTime_exact sampleFiveDays .web .default
    rcases least ascending _ _ (by decide) early with found | ⟨-, eq⟩
    · exact found
    · exact absurd eq (by decide)
  · obtain ⟨-, -, -, mono, -⟩ := standardReportTime_exact sampleFiveDays .web sampleDescending
    exact mono _ _ _ _ (by decide) (by decide) (by decide) first last

end AttributionReporting
