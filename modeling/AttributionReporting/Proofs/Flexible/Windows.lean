import AttributionReporting.Flexible.Windows
import AttributionReporting.Time
import Mathlib.Order.Lattice

/-!
# When a report is due as time goes by

The time at which a report of a window is due depends on the time `now` at which one asks: once the
window has been sent the report moves on to a later one (`reportTime_cases`). Asking later changes
the answer only when the old one has passed (`reportTime_of_le`), a time that has passed stays in
the past (`reportTime_lt_of_le`), and a report is due in the future whenever some window is still
open (`le_reportTime_of_mem`). Every answer is the end of a window (`reportTime_mem`).
-/

namespace AttributionReporting

namespace ReportWindows

variable {w : ReportWindows} {eventTime delay now later windowEnd : Int}

theorem reportTime_of_due (h : now ≤ eventTime + windowEnd + delay) :
    w.reportTime eventTime delay now windowEnd = eventTime + windowEnd + delay := by
  simp [reportTime, h]

/-- Of a window that was sent, the report moves to the first window that is still open. -/
theorem reportTime_of_sent (h : eventTime + windowEnd + delay < now) :
    w.reportTime eventTime delay now windowEnd =
      ((w.ends.find? fun e => now - delay - eventTime ≤ e).map fun e => eventTime + e + delay).getD
        (eventTime + windowEnd + delay) := by
  unfold reportTime
  rw [if_neg (by omega)]
  cases w.ends.find? _ <;> rfl

/-- A report is due at the time of its own window if that is not over, else at the time of the first
window that is still open, and back at its own time if none is. -/
theorem reportTime_cases (w : ReportWindows) (eventTime delay now windowEnd : Int) :
    (now ≤ eventTime + windowEnd + delay ∧
        w.reportTime eventTime delay now windowEnd = eventTime + windowEnd + delay) ∨
      (eventTime + windowEnd + delay < now ∧
        ∃ e, w.ends.find? (fun e => decide (now - delay - eventTime ≤ e)) = some e ∧
          now ≤ eventTime + e + delay ∧
            w.reportTime eventTime delay now windowEnd = eventTime + e + delay) ∨
      (eventTime + windowEnd + delay < now ∧ (∀ e ∈ w.ends, eventTime + e + delay < now) ∧
        w.reportTime eventTime delay now windowEnd = eventTime + windowEnd + delay) := by
  by_cases due : now ≤ eventTime + windowEnd + delay
  · exact .inl ⟨due, reportTime_of_due due⟩
  · have sent := not_le.1 due
    rw [reportTime_of_sent sent]
    cases find : w.ends.find? fun e => decide (now - delay - eventTime ≤ e) with
    | none =>
      refine .inr (.inr ⟨sent, fun e he => ?_, rfl⟩)
      have closed := List.find?_eq_none.1 find e he
      rw [decide_eq_true_eq] at closed
      omega
    | some e =>
      have still_open := List.find?_some find
      rw [decide_eq_true_eq] at still_open
      exact .inr (.inl ⟨sent, e, rfl, by omega, rfl⟩)

/-- When every window was sent, the report keeps the time of its own. -/
theorem reportTime_of_closed (closed : ∀ e ∈ w.ends, eventTime + e + delay < now) :
    w.reportTime eventTime delay now windowEnd = eventTime + windowEnd + delay := by
  rcases w.reportTime_cases eventTime delay now windowEnd with
    ⟨-, eq⟩ | ⟨-, e, find, isOpen, -⟩ | ⟨-, -, eq⟩
  · exact eq
  · have := closed e (List.mem_of_find?_eq_some find)
    omega
  · exact eq

/-- A report is due when one of the windows ends, and the delay after it has passed. -/
theorem reportTime_mem (eventTime delay now : Int) (h : windowEnd ∈ w.ends) :
    ∃ e ∈ w.ends, w.reportTime eventTime delay now windowEnd = eventTime + e + delay := by
  rcases w.reportTime_cases eventTime delay now windowEnd with
    ⟨-, eq⟩ | ⟨-, e, find, -, eq⟩ | ⟨-, -, eq⟩
  · exact ⟨windowEnd, h, eq⟩
  · exact ⟨e, List.mem_of_find?_eq_some find, eq⟩
  · exact ⟨windowEnd, h, eq⟩

/-- No report is due before its window has ended and the delay has passed. -/
theorem windowEnd_le_reportTime (w : ReportWindows) (eventTime delay now windowEnd : Int) :
    eventTime + windowEnd + delay ≤ w.reportTime eventTime delay now windowEnd := by
  rcases w.reportTime_cases eventTime delay now windowEnd with
    ⟨-, eq⟩ | ⟨sent, e, -, isOpen, eq⟩ | ⟨-, -, eq⟩ <;> omega

/-- While some window is open, no report is due in the past. -/
theorem le_reportTime_of_mem {e : Int} (h : e ∈ w.ends) (isOpen : now ≤ eventTime + e + delay) :
    now ≤ w.reportTime eventTime delay now windowEnd := by
  rcases w.reportTime_cases eventTime delay now windowEnd with
    ⟨due, eq⟩ | ⟨-, first, -, first_open, eq⟩ | ⟨-, closed, -⟩
  · omega
  · omega
  · have := closed e h
    omega

/-- A report that is not due before a later time is due at the same time for that one. -/
theorem reportTime_of_le (le : now ≤ later)
    (h : later ≤ w.reportTime eventTime delay now windowEnd) :
    w.reportTime eventTime delay later windowEnd = w.reportTime eventTime delay now windowEnd := by
  rcases w.reportTime_cases eventTime delay now windowEnd with
    ⟨-, eq⟩ | ⟨sent, e, find, -, eq⟩ | ⟨sent, -, eq⟩
  · rw [eq] at h ⊢
    exact reportTime_of_due h
  · rw [eq] at h ⊢
    -- the windows before `e` were sent by `now`, so they are by `later`
    have same : w.ends.find? (fun e => decide (later - delay - eventTime ≤ e)) = some e := by
      rw [List.find?_eq_some_iff_append] at find ⊢
      obtain ⟨-, before, after, eq, sent⟩ := find
      refine ⟨by simp only [decide_eq_true_eq]; omega, before, after, eq, fun x hx => ?_⟩
      have := sent x hx
      simp only [Bool.not_eq_true', decide_eq_false_iff_not] at this ⊢
      omega
    rw [reportTime_of_sent (by omega), same]
    rfl
  · omega

/-- When every window was sent, later times find none open either. -/
theorem reportTime_lt_of_le (le : now ≤ later)
    (h : w.reportTime eventTime delay now windowEnd < now) :
    w.reportTime eventTime delay later windowEnd < later := by
  rcases w.reportTime_cases eventTime delay now windowEnd with
    ⟨due, eq⟩ | ⟨-, e, -, isOpen, eq⟩ | ⟨sent, closed, -⟩
  · omega
  · omega
  · rw [reportTime_of_closed fun e he => (closed e he).trans_le le]
    omega

/-- The window that holds an offset is one of the windows. -/
theorem mem_of_endFor? {offset : Int} (h : w.endFor? offset = some windowEnd) :
    windowEnd ∈ w.ends ∧ offset < windowEnd := by
  unfold endFor? at h
  split at h
  · cases h
  · refine ⟨List.mem_of_find?_eq_some h, ?_⟩
    simpa using List.find?_some h

/-! ## In 64 bits -/

/-- When the reports of a window are due, with both sums wrapped. -/
def due64 (eventTime delay windowEnd : Int) : Int :=
  Time.wrap (Time.wrap (eventTime + windowEnd) + delay)

/-- When a report for the window ending at `windowEnd` is due, with every sum wrapped. -/
def reportTime64 (w : ReportWindows) (eventTime delay now windowEnd : Int) : Int :=
  if now ≤ due64 eventTime delay windowEnd then due64 eventTime delay windowEnd
  else
    match w.ends.find? (Time.wrap (Time.wrap (now - delay) - eventTime) ≤ ·) with
    | some laterEnd => due64 eventTime delay laterEnd
    | none => due64 eventTime delay windowEnd

/-- Whether 64 bits hold both sums that say when the reports of a window are due. -/
def DueFits (eventTime delay windowEnd : Int) : Prop :=
  Time.Fits (eventTime + windowEnd) ∧ Time.Fits (eventTime + windowEnd + delay)

instance : Decidable (DueFits eventTime delay windowEnd) := inferInstanceAs (Decidable (_ ∧ _))

/-- Whether 64 bits hold every sum that `reportTime` forms. -/
def ReportTimeFits (w : ReportWindows) (eventTime delay now windowEnd : Int) : Prop :=
  DueFits eventTime delay windowEnd ∧
    (eventTime + windowEnd + delay < now →
      Time.Fits (now - delay) ∧ Time.Fits (now - delay - eventTime) ∧
        ∀ laterEnd ∈ w.ends.find? (now - delay - eventTime ≤ ·), DueFits eventTime delay laterEnd)

instance : Decidable (w.ReportTimeFits eventTime delay now windowEnd) :=
  inferInstanceAs (Decidable (_ ∧ (_ → _ ∧ _ ∧ ∀ laterEnd ∈ _, _)))

theorem due64_eq (fits : DueFits eventTime delay windowEnd) :
    due64 eventTime delay windowEnd = eventTime + windowEnd + delay := by
  rw [due64, Time.wrap_of_fits fits.1, Time.wrap_of_fits fits.2]

theorem reportTime64_eq (fits : w.ReportTimeFits eventTime delay now windowEnd) :
    w.reportTime64 eventTime delay now windowEnd = w.reportTime eventTime delay now windowEnd := by
  obtain ⟨own, moved⟩ := fits
  rw [reportTime64, due64_eq own]
  unfold reportTime
  dsimp only
  split_ifs with due
  · rfl
  · obtain ⟨sent, offset, later⟩ := moved (not_le.1 due)
    rw [Time.wrap_of_fits sent, Time.wrap_of_fits offset]
    cases found : w.ends.find? (fun e => decide (now - delay - eventTime ≤ e)) with
    | none => rfl
    | some laterEnd => exact due64_eq (later laterEnd found)

end ReportWindows

end AttributionReporting
