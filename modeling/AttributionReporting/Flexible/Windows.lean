import AttributionReporting.Ascending
import AttributionReporting.Json.Decode

/-!
# Reporting windows

A source's reporting windows follow one another: the first begins at `start` and each ends where the
next one begins, all relative to the time of the source. A window holds its beginning and not its
end. `endFor?` gives the end of the window that holds an offset, and `reportTime` the time at which
a report of that window is due, moved to the first window still open when its own has been sent.
-/

namespace AttributionReporting

/-- Consecutive reporting windows, relative to the time of the source. -/
structure ReportWindows where
  start : Int
  ends : List Int
deriving DecidableEq

namespace ReportWindows

/-- The end of the window that holds `offset`. -/
def endFor? (w : ReportWindows) (offset : Int) : Option Int :=
  if offset < w.start then none else w.ends.find? (offset < ·)

/-- Whether the windows start no earlier than the source and none of them is empty. -/
def wellOrdered (w : ReportWindows) : Bool := decide (0 ≤ w.start) && ascending (w.start :: w.ends)

/-- When a report for the window ending at `windowEnd` is due, for a source of time `eventTime`. If
that is before `now` the report moves to the first window that is not sent yet; when none is left it
keeps its time. The sums are exact, as they are in 64 bits if these hold each of them. -/
def reportTime (w : ReportWindows) (eventTime delay now windowEnd : Int) : Int :=
  let due := eventTime + windowEnd + delay
  if now ≤ due then due
  else
    match w.ends.find? (now - delay - eventTime ≤ ·) with
    | some laterEnd => eventTime + laterEnd + delay
    | none => due

/-- Reads windows; they start at zero unless they say otherwise. -/
def ofJson? (j : Json) : Option ReportWindows := do
  let fields ← j.record? ["start_time", "end_times"] 0
  let start ← fields.optional "start_time" 0 Json.signed64?
  let ends ← fields.required "end_times" (Json.list? Json.signed64?)
  some { start, ends }

/-- The form in which windows are stored. -/
def toJson (w : ReportWindows) : Json :=
  .record [("start_time", .integer w.start), ("end_times", .array (w.ends.map .integer))]

end ReportWindows

end AttributionReporting
