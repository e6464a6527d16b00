import AttributionReporting.Proofs.Flexible.Partition
import AttributionReporting.Sample

/-!
# The window that a report moves to

A report goes to the first window, from its own on, whose reports are not due yet
(`exists_isLeast_openEnds`). For this the windows have to be in order, since a report whose own
window was sent looks for its new one among all of them. It stays there until that window is sent
too, and it does not move back while a later window is open (`reportTime_mono`); only when every
window was sent does it return to the time of its own, which has passed. Of two windows the earlier
one never has its reports due after those of the later one (`reportTime_le_of_le`).
`reportTime_exact` says all this of the times that 64 bits compute.
-/

namespace AttributionReporting

namespace ReportWindows

variable {w : ReportWindows} {eventTime delay now later windowEnd laterEnd : Int}

/-- The ends, from `windowEnd` on, of windows whose reports are not due before `now`. -/
def openEnds (w : ReportWindows) (eventTime delay now windowEnd : Int) : Set Int :=
  {e | e ∈ w.ends ∧ windowEnd ≤ e ∧ now ≤ eventTime + e + delay}

/-- Fewer windows are open later. -/
theorem openEnds_subset_of_le (le : now ≤ later) :
    w.openEnds eventTime delay later windowEnd ⊆ w.openEnds eventTime delay now windowEnd :=
  fun _ ⟨mem, ahead, isOpen⟩ => ⟨mem, ahead, le.trans isOpen⟩

theorem openEnds_subset_of_end_le (le : windowEnd ≤ laterEnd) :
    w.openEnds eventTime delay now laterEnd ⊆ w.openEnds eventTime delay now windowEnd :=
  fun _ ⟨mem, ahead, isOpen⟩ => ⟨mem, le.trans ahead, isOpen⟩

/-- No window up to one that was sent is open, so the search for an open one may start anywhere. -/
theorem openEnds_of_sent (sent : eventTime + windowEnd + delay < now) :
    w.openEnds eventTime delay now windowEnd =
      {e | e ∈ w.ends ∧ decide (now - delay - eventTime ≤ e) = true} := by
  ext e
  refine and_congr_right fun _ => ?_
  rw [decide_eq_true_eq]
  omega

theorem exists_isLeast_openEnds (ordered : w.wellOrdered = true) (mem : windowEnd ∈ w.ends)
    (isOpen : ∃ e ∈ w.ends, now ≤ eventTime + e + delay) :
    ∃ e, IsLeast (w.openEnds eventTime delay now windowEnd) e ∧
      w.reportTime eventTime delay now windowEnd = eventTime + e + delay := by
  rcases w.reportTime_cases eventTime delay now windowEnd with
    ⟨due, eq⟩ | ⟨sent, e, find, -, eq⟩ | ⟨-, closed, -⟩
  · exact ⟨windowEnd, ⟨⟨mem, le_rfl, due⟩, fun _ ⟨_, ahead, _⟩ => ahead⟩, eq⟩
  · obtain ⟨-, ascending⟩ := wellOrdered_iff.1 ordered
    rw [openEnds_of_sent sent]
    exact ⟨e, isLeast_of_find?_eq_some ((List.pairwise_cons.1 ascending).2.imp le_of_lt) find, eq⟩
  · obtain ⟨e, he, isOpen⟩ := isOpen
    exact absurd isOpen (closed e he).not_ge

/-- While a window is open at the later time, the report is due no earlier than it was before. -/
theorem reportTime_mono (ordered : w.wellOrdered = true) (mem : windowEnd ∈ w.ends)
    (le : now ≤ later) (isOpen : ∃ e ∈ w.ends, later ≤ eventTime + e + delay) :
    w.reportTime eventTime delay now windowEnd ≤ w.reportTime eventTime delay later windowEnd := by
  have isOpen_before : ∃ e ∈ w.ends, now ≤ eventTime + e + delay :=
    isOpen.imp fun _ ⟨he, isOpen⟩ => ⟨he, le.trans isOpen⟩
  obtain ⟨e, least, eq⟩ := exists_isLeast_openEnds ordered mem isOpen_before
  obtain ⟨e', least', eq'⟩ := exists_isLeast_openEnds ordered mem isOpen
  have := least'.mono least (openEnds_subset_of_le le)
  omega

/-- The reports of an earlier window are due no later than those of a later one. -/
theorem reportTime_le_of_le (ordered : w.wellOrdered = true) (mem : windowEnd ∈ w.ends)
    (mem_later : laterEnd ∈ w.ends) (le : windowEnd ≤ laterEnd) :
    w.reportTime eventTime delay now windowEnd ≤ w.reportTime eventTime delay now laterEnd := by
  by_cases isOpen : ∃ e ∈ w.ends, now ≤ eventTime + e + delay
  · obtain ⟨e, least, eq⟩ := exists_isLeast_openEnds ordered mem isOpen
    obtain ⟨e', least', eq'⟩ := exists_isLeast_openEnds ordered mem_later isOpen
    have := least'.mono least (openEnds_subset_of_end_le le)
    omega
  · simp only [not_exists, not_and, not_le] at isOpen
    rw [reportTime_of_closed isOpen, reportTime_of_closed isOpen]
    omega

/-- Windows in order move a report to the least end from its own on that is open, if any window is,
and leave it at its own end, which has passed, if none is. The report moves only when the time it is
due has passed. As time goes by it moves forward while some window is open, and a report of a later
window is never due before it. All this holds in 64 bits at every time at which these hold the sums
that are formed. -/
theorem reportTime_exact (ordered : w.wellOrdered = true) (eventTime delay : Int)
    (mem : windowEnd ∈ w.ends) :
    let due (now : Int) : Int := w.reportTime64 eventTime delay now windowEnd
    let fits (now : Int) : Prop := w.ReportTimeFits eventTime delay now windowEnd
    (∀ now, fits now → due now = w.reportTime eventTime delay now windowEnd) ∧
      (∀ now, fits now → ∃ e ∈ w.ends, windowEnd ≤ e ∧ due now = eventTime + e + delay) ∧
      (∀ now, fits now → (∃ e ∈ w.ends, now ≤ eventTime + e + delay) →
        now ≤ due now ∧ ∃ e, IsLeast (w.openEnds eventTime delay now windowEnd) e ∧
          due now = eventTime + e + delay) ∧
      (∀ now, fits now → (∀ e ∈ w.ends, eventTime + e + delay < now) →
        due now = eventTime + windowEnd + delay ∧ due now < now) ∧
      (∀ now later, fits now → fits later → now ≤ later → later ≤ due now →
        due later = due now) ∧
      (∀ now later, fits now → fits later → now ≤ later →
        (∃ e ∈ w.ends, later ≤ eventTime + e + delay) → due now ≤ due later) ∧
      ∀ now, fits now → ∀ laterEnd ∈ w.ends, windowEnd ≤ laterEnd →
        w.ReportTimeFits eventTime delay now laterEnd →
          due now ≤ w.reportTime64 eventTime delay now laterEnd := by
  intro due fits
  have exact_due (now : Int) (h : fits now) :
      due now = w.reportTime eventTime delay now windowEnd := reportTime64_eq h
  refine ⟨exact_due, fun now h => ?_, fun now h isOpen => ?_, fun now h closed => ?_,
    fun now later h h' le ahead => ?_, fun now later h h' le isOpen => ?_,
    fun now h laterEnd mem_later le h' => ?_⟩
  · obtain ⟨e, he, eq⟩ := reportTime_mem eventTime delay now mem
    have := windowEnd_le_reportTime w eventTime delay now windowEnd
    exact ⟨e, he, by omega, (exact_due now h).trans eq⟩
  · obtain ⟨e, least, eq⟩ := exists_isLeast_openEnds ordered mem isOpen
    rw [exact_due now h]
    exact ⟨least.1.2.2.trans_eq eq.symm, e, least, eq⟩
  · rw [exact_due now h, reportTime_of_closed closed]
    exact ⟨rfl, closed _ mem⟩
  · rw [exact_due now h] at ahead ⊢
    rw [exact_due later h']
    exact reportTime_of_le le ahead
  · rw [exact_due now h, exact_due later h']
    exact reportTime_mono ordered mem le isOpen
  · rw [exact_due now h, reportTime64_eq h']
    exact reportTime_le_of_le ordered mem mem_later le

/-- Windows that end after two days, a week and a month. -/
def sampleWeekly : ReportWindows := ⟨0, [Time.days 2, Time.days 7, Time.days 30]⟩

/-- On the third day a report of the first window moves to the second one, where it still is when
that ends. On the tenth day it has moved to the last window, and when all of them are over it is
back at its own, in the past. -/
theorem reportTime_exact_sample :
    let day (n : Int) := Sample.source.eventTime + Time.days n
    let hour := Time.hours 1
    let due (now : Int) := sampleWeekly.reportTime64 Sample.source.eventTime hour now (Time.days 2)
    IsLeast (sampleWeekly.openEnds Sample.source.eventTime hour (day 3) (Time.days 2))
        (Time.days 7) ∧
      due (day 3) = day 7 + hour ∧ due (day 7 + hour) = day 7 + hour ∧
      due (day 3) ≤ due (day 10) ∧ due (day 10) = day 30 + hour ∧
      due (day 40) = day 2 + hour ∧ due (day 40) < day 40 := by
  intro day hour due
  have ordered : sampleWeekly.wellOrdered = true := by decide
  have mem : Time.days 2 ∈ sampleWeekly.ends := by decide
  obtain ⟨-, -, least, past, stable, mono, -⟩ :=
    reportTime_exact ordered Sample.source.eventTime hour mem
  have moved : due (day 3) = day 7 + hour := by decide
  refine ⟨?_, moved, ?_, ?_, by decide, past _ (by decide) (by decide)⟩
  · obtain ⟨-, e, least, eq⟩ := least (day 3) (by decide) (by decide)
    have same : Sample.source.eventTime + e + hour =
        Sample.source.eventTime + Time.days 7 + hour := eq.symm.trans moved
    have second : Time.days 7 = e := by omega
    exact second ▸ least
  · exact (stable (day 3) _ (by decide) (by decide) (by decide) moved.ge).trans moved
  · exact mono _ _ (by decide) (by decide) (by decide) (by decide)

/-- A window that 64 bits do not reach the end of gives its reports away to an earlier one. -/
example :
    let last : Int := 0x7FFFFFFFFFFFFFFF
    (ReportWindows.mk 0 [Time.days 2, last]).reportTime64 1 (Time.hours 1) (Time.days 1) last =
      1 + Time.days 2 + Time.hours 1 := by
  decide

end ReportWindows

end AttributionReporting
